import TreeShare.Domain.Label

/-! Domain names of any script and their form in ASCII. -/
namespace TreeShare.Domain

/-- The labels of a name: every character is replaced by what it stands for, and points then separate
the labels. If one of them runs from right to left, all of them must fit that. -/
def labels? (name : List Char) : Option (List Label) := do
  let images ← name.mapM image?
  let labels ← ((Composed.text images.flatten).splitOn '.').mapM Label.read?
  let directions := labels.map Label.directions
  guard (directions.any (·.any Direction.isRightToLeft) → directions.all Direction.fits)
  pure labels

def ascii? (name : List Char) : Option (List Char) :=
  (labels? name).map fun labels => List.intercalate ['.'] (labels.map Label.ascii)

end TreeShare.Domain
