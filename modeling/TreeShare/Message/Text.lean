import TreeShare.Message
import TreeShare.Datum.Error

/-! One line about a message: its header, the start of its body, and the names in a directory. -/
namespace TreeShare.Message

/-- The names in the complete entries of a directory body. -/
def entryNames (body : Bytes) : List String :=
  (Bytes.blocks 64 ((body.length - 33) / 64) (body.drop 33)).map fun entry =>
    Utf8.lossy (Slot.used (entry.take 32))

def text (m : Message) : String :=
  let kind? := if m.type = .datum then m.body[32]?.bind DatumKind.ofByte? else none
  let kind := match kind? with
    | some k => " " ++ k.name
    | none => ""
  let children :=
    if kind? = some .directory then
      " Children:" ++ String.join ((entryNames m.body).map (" " ++ ·))
    else ""
  s!"Id: {m.id.toNat} Type: {m.type.name}{kind} Length: {m.body.length} "
    ++ s!"Body: {Utf8.lossy (m.body.take 100)}{children}"

end TreeShare.Message
