import TreeShare.Proofs.Publishing.Binding

/-! Published content, walked down from its root hash. Every hash on the way is found, and the walk ends
with the tree that was exported. Main statement: `rebuild_of_export`. -/
namespace TreeShare

inductive RebuildError where
  | tooDeep
  | refused (cause : PublishError)
  | missing (hash : Digest)
  | malformed (cause : DatumError)
  | split

abbrev Source := Digest → Except PublishError (Option Message)

def rebuildEntries (below : Digest → Except RebuildError FileTree) :
    List DirectoryEntry → Except RebuildError (List (Bytes × FileTree))
  | [] => .ok []
  | e :: es => do
    let t ← below e.hash
    let rest ← rebuildEntries below es
    pure ((Utf8.encode e.name, t) :: rest)

/-- Asks for a hash, reads the body of the reply and goes down into every entry, at most `depth`
levels. -/
def rebuild (source : Source) : (depth : Nat) → Digest → Except RebuildError FileTree
  | 0, _ => .error .tooDeep
  | depth + 1, h =>
    match source h with
    | .error cause => .error (.refused cause)
    | .ok none => .error (.missing h)
    | .ok (some m) =>
      match Datum.parse m.body with
      | .error cause => .error (.malformed cause)
      | .ok ⟨_, .chunk data⟩ => .ok (.file data)
      | .ok ⟨_, .tree _⟩ => .error .split
      | .ok ⟨_, .directory es⟩ => (rebuildEntries (rebuild source depth) es).map .directory

namespace FileTree

mutual

def height : FileTree → Nat
  | .file _ => 1
  | .directory entries => heightOfAll entries + 1

def heightOfAll : List (Bytes × FileTree) → Nat
  | [] => 0
  | (_, t) :: rest => max t.height (heightOfAll rest)

end

theorem height_le_heightOfAll {entries : List (Bytes × FileTree)} {e : Bytes × FileTree}
    (he : e ∈ entries) : e.2.height ≤ heightOfAll entries := by
  induction entries with
  | nil => cases he
  | cons f entries ih =>
    rw [heightOfAll]
    rcases List.mem_cons.mp he with rfl | he
    · exact Nat.le_max_left _ _
    · exact Nat.le_trans (ih he) (Nat.le_max_right _ _)

/-- What a datum tells about a tree: the data of a file, or the names in a directory with the hashes of
what they name. -/
def ToldBy : FileTree → Content → Prop
  | .file data, .chunk data' => data = data'
  | .directory entries, .directory es =>
    es.map (fun e => (Utf8.encode e.name, e.hash)) = entries.map fun e => (e.1, e.2.hash)
  | _, _ => False

theorem rebuildEntries_of_told {below : Digest → Except RebuildError FileTree}
    {es : List DirectoryEntry} {entries : List (Bytes × FileTree)}
    (htold : es.map (fun e => (Utf8.encode e.name, e.hash)) = entries.map fun e => (e.1, e.2.hash))
    (hbelow : ∀ e ∈ entries, below e.2.hash = .ok e.2) : rebuildEntries below es = .ok entries := by
  induction es generalizing entries with
  | nil =>
    cases List.map_eq_nil_iff.mp htold.symm
    rfl
  | cons x es ih =>
    cases entries with
    | nil => cases htold
    | cons e entries =>
      obtain ⟨hfirst, hrest⟩ := List.cons.inj htold
      obtain ⟨hname, hhash⟩ := Prod.mk.inj hfirst
      rw [List.forall_mem_cons] at hbelow
      unfold rebuildEntries
      rw [hhash, hbelow.1, Except.bind_ok, ih hrest hbelow.2, hname]
      rfl

theorem rebuild_of_told {source : Source} {c : FileTree}
    (hsource : ∀ s : FileTree, s.PartOf c → ∃ m x content, source s.hash = .ok (some m) ∧
      Datum.parse m.body = .ok ⟨x, content⟩ ∧ s.ToldBy content)
    {depth : Nat} (hdepth : c.height ≤ depth) : rebuild source depth c.hash = .ok c := by
  induction c generalizing depth with
  | file data =>
    obtain ⟨m, x, content, hm, hparse, htold⟩ := hsource _ (.refl _)
    rw [height] at hdepth
    obtain ⟨depth, rfl⟩ : ∃ k, depth = k + 1 := ⟨depth - 1, by omega⟩
    cases content with
    | chunk data' =>
      cases htold
      unfold rebuild
      simp only [hm, hparse]
    | tree children => exact htold.elim
    | directory es => exact htold.elim
  | directory entries ih =>
    obtain ⟨m, x, content, hm, hparse, htold⟩ := hsource _ (.refl _)
    rw [height] at hdepth
    obtain ⟨depth, rfl⟩ : ∃ k, depth = k + 1 := ⟨depth - 1, by omega⟩
    cases content with
    | chunk data' => exact htold.elim
    | tree children => exact htold.elim
    | directory es =>
      have hbelow : ∀ e ∈ entries, rebuild source depth e.2.hash = .ok e.2 := by
        intro e he
        have hheight := height_le_heightOfAll he
        exact ih e he (fun s hs => hsource s (.entry he hs)) (by omega)
      unfold rebuild
      simp only [hm, hparse, rebuildEntries_of_told htold hbelow]
      rfl

end FileTree

theorem Datum.parse_of_toMessage {c : Content} {datum : Datum} (h : ofContent c = .ok datum)
    (request : UInt32) :
    ∃ m, datum.toMessage request = .ok m ∧ parse m.body = .ok ⟨datum.hash, c⟩ := by
  obtain ⟨b, hbody, -⟩ := checkIntegrity_of_ofContent h
  obtain ⟨hc, payload, hp, rfl⟩ := ofContent_eq_ok_iff.mp h
  obtain ⟨m, hm, -, -, rfl, -⟩ := toMessage_of_inBounds hc hbody request
  exact ⟨m, hm, parse_of_toBody hc hbody⟩

namespace PublishedTree

variable {reads : Path → Bytes → Prop} {nodes : List TreeNode}

theorem exists_mem_zip {α β : Type} {xs : List α} {ys : List β} (hlen : xs.length = ys.length)
    {y : β} (hy : y ∈ ys) : ∃ x, (x, y) ∈ xs.zip ys := by
  have hsnd : (xs.zip ys).map Prod.snd = ys := List.map_snd_zip (Nat.le_of_eq hlen.symm)
  rw [← hsnd] at hy
  obtain ⟨⟨x, _⟩, hmem, rfl⟩ := List.mem_map.mp hy
  exact ⟨x, hmem⟩

theorem Shows.part {id : Nat} {s c : FileTree} (h : Shows reads nodes id c) (hs : s.PartOf c) :
    ∃ i, Shows reads nodes i s := by
  induction hs generalizing id with
  | refl => exact ⟨id, h⟩
  | entry he _ ih =>
    cases h with
    | directory _ _ hlen _ hbelow =>
      obtain ⟨child, hmem⟩ := exists_mem_zip hlen he
      exact ih (hbelow _ hmem)

theorem entries_of_shown {children : List (Slot × Nat)} {named : List (Bytes × FileTree)}
    (hlen : children.length = named.length)
    (hnamed : ∀ p ∈ children.zip named, ∃ child, nodes[p.1.2]? = some child ∧
      Utf8.encode child.name = p.2.1)
    (hhashes : ∀ p ∈ children.zip named, hashOf nodes p.1.2 = .ok p.2.2.hash) :
    ∃ es, entries nodes children = .ok es ∧
      es.map (fun e => (Utf8.encode e.name, e.hash)) = named.map fun e => (e.1, e.2.hash) := by
  induction children generalizing named with
  | nil =>
    cases List.eq_nil_of_length_eq_zero hlen.symm
    exact ⟨[], rfl, rfl⟩
  | cons c children ih =>
    cases named with
    | nil => contradiction
    | cons e named =>
      rw [List.zip_cons_cons, List.forall_mem_cons] at hnamed hhashes
      obtain ⟨es, hes, hmap⟩ := ih (Nat.succ.inj hlen) hnamed.2 hhashes.2
      obtain ⟨child, hchild, hname⟩ := hnamed.1
      refine ⟨⟨child.name, e.2.hash⟩ :: es, ?_, ?_⟩
      · unfold entries
        simp only at hchild
        rw [hhashes.1, Except.bind_ok, hes, hchild]
        rfl
      · rw [List.map_cons, List.map_cons, hmap, hname]

theorem Complete.datum_of_shows {t : PublishedTree} (ht : t.Complete) {id : Nat} {c : FileTree}
    (h : Shows reads t.nodes id c) {d : Disk} (hreads : ∀ q data, reads q data → d.read q = .ok data) :
    ∃ content datum, Datum.ofContent content = .ok datum ∧ t.datum d id = .ok datum ∧
      c.ToldBy content := by
  have hhash := hashOf_of_shows ht.arena ht.hashed h
  cases h with
  | @file _ node path data hfound hbody hnode hread hshort =>
    have hdatum := Datum.ofContent_eq_ok_iff.mpr
      ⟨(Content.inBounds_chunk data).mpr hshort, data, rfl, rfl⟩
    have hchunk := Disk.readChunk_eq_ok_iff.mpr ⟨hreads _ _ hread, hshort⟩
    refine ⟨.chunk data, _, hdatum, ?_, rfl⟩
    unfold datum
    rw [FileTree.hash] at hhash
    simp only [hhash, Except.bind_ok, hfound, Option.map_some, hbody, hchunk, hdatum,
      Except.mapError_ok]
    exact if_pos rfl
  | @directory _ node children named hfound hbody hlen hnamed hbelow =>
    have hhashes := fun p hp => hashOf_of_shows ht.arena ht.hashed (hbelow p hp)
    obtain ⟨es, hes, hmap⟩ := entries_of_shown hlen hnamed hhashes
    obtain ⟨x, hx, -⟩ := ht.hashed node (List.mem_of_getElem? hfound)
    obtain ⟨_, datum, -, -, hdatum⟩ := ht.datum_directory hfound hx hbody
    refine ⟨.directory es, datum, ?_, hdatum d, hmap⟩
    have hd := hdatum d
    unfold PublishedTree.datum at hd
    simp only [hhash, Except.bind_ok, hfound, Option.map_some, hbody, hes] at hd
    exact Except.mapError_eq_ok_iff.mp hd

/-- Whatever node is found for the hash of a part, it shows that part: nothing but a collision could
put another part in its place. -/
theorem Complete.lookup?_of_part {t : PublishedTree} (ht : t.Complete) {c : FileTree}
    (hc : c.Slotted) (hdistinct : ¬ c.Collision c) (hshows : Shows reads t.nodes t.root c)
    (hcovers : ∀ i < t.nodes.length, ∃ s, s.PartOf c ∧ Shows reads t.nodes i s) {s : FileTree}
    (hs : s.PartOf c) : ∃ id, t.lookup? s.hash = some id ∧ Shows reads t.nodes id s := by
  obtain ⟨i, hi⟩ := hshows.part hs
  obtain ⟨node, hnode, hhash⟩ := hashOf_eq_ok_iff.mp (hashOf_of_shows ht.arena ht.hashed hi)
  obtain ⟨id, hlast⟩ := exists_isLastWith ⟨node, List.mem_of_getElem? hnode, hhash⟩
  obtain ⟨found, hfound, hsame⟩ := hlast.1
  refine ⟨id, ht.lookup _ _ hlast, ?_⟩
  obtain ⟨s', hs', hshown⟩ := hcovers id (List.getElem?_eq_some_iff.mp hfound).1
  have hhash' := hashOf_of_shows ht.arena ht.hashed hshown
  have hequal : s.hash = s'.hash :=
    Except.ok.inj ((hashOf_eq_ok_iff.mpr ⟨found, hfound, hsame⟩).symm.trans hhash')
  rcases FileTree.eq_or_collision (hc.part hs) (hc.part hs') hequal with rfl | hcollision
  · exact hshown
  · exact absurd (hcollision.mono hs hs') hdistinct

end PublishedTree

namespace Publication

/-- While the files that were exported are unchanged, the walk from the root hash over the published
datums ends with the exported content, unless two of its nodes collide. Each request may have its own
id. -/
theorem rebuild_of_export {s s' : Publication} {d d' : Disk} {path : Path} {root : Digest}
    (h : s.exportPath d path = (.ok root, s'))
    (hfiles : ∀ q data, d.FileBelow path q data → d'.read q = .ok data) (ids : Digest → UInt32) :
    ∃ c, (∀ x, d.Unfolds path x ↔ x = c) ∧ s'.rootHash = root ∧ (¬ c.Collision c →
      ∀ depth, c.height ≤ depth →
        rebuild (fun x => s'.datumFor d' x (ids x)) depth s'.rootHash = .ok c) := by
  obtain ⟨t, c, hbuild, rfl, hc, he, rfl⟩ := exportPath_eq_ok h
  have ht := PublishedTree.build_complete hbuild
  obtain ⟨c', hc', -, hshows, hcovers⟩ := PublishedTree.build_shows hbuild
  cases hc.unique hc'
  have hroot : (publish t).rootHash = c.hash := by
    unfold rootHash publish
    rw [Option.bind_some, ht.rootHash?_of_shows hshows]
    rfl
  refine ⟨c, fun x => ⟨fun hx => hx.unique hc, fun hx => hx ▸ hc⟩, hroot, ?_⟩
  intro hdistinct depth hdepth
  rw [hroot]
  apply FileTree.rebuild_of_told _ hdepth
  intro part hpart
  have hslotted := FileTree.slotted_of_unfolds hc he
  obtain ⟨id, hlookup, hshown⟩ := ht.lookup?_of_part hslotted hdistinct hshows hcovers hpart
  obtain ⟨content, datum, hcontent, hdatum, htold⟩ := ht.datum_of_shows hshown hfiles
  obtain ⟨m, hm, hparse⟩ := Datum.parse_of_toMessage hcontent (ids part.hash)
  refine ⟨m, datum.hash, content, ?_, hparse, htold⟩
  have hmessage : t.datumMessage d' id (ids part.hash) = .ok m := by
    unfold PublishedTree.datumMessage
    rw [hdatum, Except.bind_ok, hm]
    rfl
  rw [datumFor_of_tree (s := publish t) rfl hlookup, hmessage]
  rfl

/-- Two equal files and, under other names, two equal directories. The directory they are in gets one
more file before it is walked. -/
theorem rebuild_of_export_with_twins :
    let file : FileObject := .file [7] 0o644
    let d : Disk := ⟨⟨[([[0x64]], .directory), ([[0x64], [0x61]], file), ([[0x64], [0x62]], file),
      ([[0x64], [0x63]], .directory), ([[0x64], [0x63], [0x61]], file),
      ([[0x64], [0x65]], .directory), ([[0x64], [0x65], [0x61]], file)]⟩⟩
    let d' := d.set [[0x64], [0x66]] file
    let twin : FileTree := .directory [([0x61], .file [7])]
    let c : FileTree :=
      .directory [([0x61], .file [7]), ([0x62], .file [7]), ([0x63], twin), ([0x65], twin)]
    ∃ s, empty.exportPath d ⟨[0x64]⟩ = (.ok c.hash, s) ∧ ¬ c.Collision c ∧
      ∀ depth, 3 ≤ depth → rebuild (fun x => s.datumFor d' x 1) depth s.rootHash = .ok c := by
  intro file d d' twin c
  have hlist : d.list ⟨[0x64]⟩ = .ok [[0x61], [0x62], [0x63], [0x65]] := rfl
  have hfirst : d.list ⟨[0x64, 0x2f, 0x63]⟩ = .ok [[0x61]] := rfl
  have hsecond : d.list ⟨[0x64, 0x2f, 0x65]⟩ = .ok [[0x61]] := rfl
  have hc : d.Unfolds ⟨[0x64]⟩ c := by
    refine .directory hlist (by decide) (by decide) ?_
    simp only [List.forall_mem_cons]
    refine ⟨.file rfl, .file rfl, .directory hfirst (by decide) (by decide) ?_,
      .directory hsecond (by decide) (by decide) ?_, by simp⟩ <;>
    · simp only [List.forall_mem_cons]
      exact ⟨.file rfl, by simp⟩
  have he : c.Exportable := by decide +kernel
  have hfiles : ∀ q data, d.FileBelow ⟨[0x64]⟩ q data → d'.read q = .ok data := by
    intro q data hq
    obtain ⟨name, hname, hq⟩ := hq.of_list hlist
    simp only [List.mem_cons, List.not_mem_nil, or_false] at hname
    rcases hname with rfl | rfl | rfl | rfl
    · obtain ⟨rfl, rfl⟩ := hq.of_read rfl
      rfl
    · obtain ⟨rfl, rfl⟩ := hq.of_read rfl
      rfl
    · obtain ⟨name, hname, hq⟩ := hq.of_list hfirst
      cases List.mem_singleton.mp hname
      obtain ⟨rfl, rfl⟩ := hq.of_read rfl
      rfl
    · obtain ⟨name, hname, hq⟩ := hq.of_list hsecond
      cases List.mem_singleton.mp hname
      obtain ⟨rfl, rfl⟩ := hq.of_read rfl
      rfl
  have hdistinct : ¬ c.Collision c := by decide +kernel
  obtain ⟨t, hexport⟩ := exportPath_of_unfolds (by decide) hc he empty
  obtain ⟨x, hx, -, hrebuild⟩ := rebuild_of_export hexport hfiles fun _ => 1
  cases (hx c).mp hc
  have hheight : c.height = 3 := by simp [c, twin, FileTree.height, FileTree.heightOfAll]
  rw [hheight] at hrebuild
  exact ⟨publish t, hexport, hdistinct, hrebuild hdistinct⟩

end Publication
end TreeShare
