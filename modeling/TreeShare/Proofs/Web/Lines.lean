import TreeShare.Proofs.Except
import TreeShare.Proofs.Text.Utf8
import TreeShare.Web.Directory

/-! The addresses in what a server says of a peer, one a line. A line that is no address is passed over, but a
line that is no text takes all the others with it. Main statement: `addresses_by_line`. -/
namespace TreeShare.Web

def IsText (line : Bytes) : Prop := ∃ text, Utf8.decode? line = some text

/-- The address that a line spells by itself, with or without white space around it. -/
def lineAddress? (line : Bytes) : Option Address :=
  (Utf8.decode? line).bind fun text => Address.ofText? (trimmed text)

namespace Response

variable {r : Response}

def byteLines (r : Response) : List Bytes := r.body.splitOn 0x0a

def addressesByLine (r : Response) : List Address := r.byteLines.filterMap lineAddress?

theorem exists_decode?_iff :
    (∃ text, Utf8.decode? r.body = some text) ↔ ∀ line ∈ r.byteLines, IsText line :=
  Utf8.exists_decode?_iff_splitOn (d := '\n') (by decide)

theorem addresses_of_text (h : ∀ line ∈ r.byteLines, IsText line) :
    r.lines.filterMap Address.ofText? = r.addressesByLine := by
  obtain ⟨text, htext⟩ := exists_decode?_iff.mpr h
  have hlines : r.byteLines =
      (text.toList.splitOn '\n').map fun row => Utf8.encode (String.ofList row) := by
    unfold byteLines
    rw [← Utf8.encode_of_decode? htext, ← String.ofList_toList (s := text)]
    simpa using Utf8.encode_splitOn (d := '\n') (by decide) text.toList
  have hrow (row : List Char) : lineAddress? (Utf8.encode (String.ofList row)) =
      Address.ofText? (String.ofList (trimmedChars row)) := by
    simp [lineAddress?, trimmed]
  -- The empty text is no address, so it does not matter that empty lines are left out.
  have hempty : Address.ofText? "" = none := by decide
  unfold lines addressesByLine
  rw [htext, hlines, Option.getD_some, List.filterMap_map, List.filterMap_filter, List.filterMap_map]
  congr 1
  funext row
  simp only [Function.comp_apply, hrow]
  split <;> simp_all

theorem lines_of_broken (h : ¬ ∀ line ∈ r.byteLines, IsText line) : r.lines = [] := by
  have hnone : Utf8.decode? r.body = none := by
    rw [Option.eq_none_iff_forall_ne_some]
    exact fun text htext => h (exists_decode?_iff.mp ⟨text, htext⟩)
  unfold lines
  rw [hnone]
  decide

end Response

namespace PeerServer

variable {s : PeerServer} {peer : String} {r : Response}

theorem addresses_eq (hget : s.client.get (s.base.descend ["peers", peer, "addresses"]) = .ok r)
    (hsuccess : r.isSuccess = true) :
    s.addresses peer = .ok (r.lines.filterMap Address.ofText?) := by
  have hstatus : r.status ≠ 404 := by
    rintro hstatus
    unfold Response.isSuccess at hsuccess
    rw [hstatus] at hsuccess
    contradiction
  have hresource : s.resource peer "addresses" = .ok r := by
    unfold resource get
    rw [hget, Except.mapError_ok, Except.bind_ok, if_neg hstatus, if_pos hsuccess]
    rfl
  unfold addresses
  rw [hresource]
  rfl

/-- A successful response gives the addresses of all its lines, each read by itself, exactly if all lines are
text or none is an address; if any line is not text it gives none. -/
theorem addresses_by_line (hget : s.client.get (s.base.descend ["peers", peer, "addresses"]) = .ok r)
    (hsuccess : r.isSuccess = true) :
    ∃ found, s.addresses peer = .ok found ∧
      ((∀ line ∈ r.byteLines, IsText line) → found = r.addressesByLine) ∧
      ((∃ line ∈ r.byteLines, ¬ IsText line) → found = []) ∧
      (found = r.addressesByLine ↔ (∀ line ∈ r.byteLines, IsText line) ∨
        ∀ line ∈ r.byteLines, lineAddress? line = none) := by
  refine ⟨_, addresses_eq hget hsuccess, Response.addresses_of_text, ?_, ?_⟩
  · rintro ⟨line, hline, hbroken⟩
    rw [Response.lines_of_broken fun h => hbroken (h line hline)]
    rfl
  · by_cases htext : ∀ line ∈ r.byteLines, IsText line
    · exact iff_of_true (Response.addresses_of_text htext) (.inl htext)
    · rw [Response.lines_of_broken htext, or_iff_right htext, List.filterMap_nil, eq_comm]
      exact List.filterMap_eq_nil_iff

/-- Lines that end in one way and the other, an empty one, one that is no address, and one with white space
around its address. -/
theorem addresses_by_line_of_mixed :
    let base : Url := ⟨"http", "", some (.name "d"), none, [""], none, none⟩
    let body := Utf8.encode "10.0.0.1:80\x0d\n\nalice\n \u2003[::1]:81\t\n"
    let s : PeerServer := ⟨base, ⟨fun _ => .ok ⟨200, body⟩⟩⟩
    s.addresses "bob" = .ok [.v4 ⟨#v[10, 0, 0, 1], 80⟩, .v6 #v[0, 0, 0, 0, 0, 0, 0, 1] 81 0] := by
  intro base body s
  have htext : ∃ text, Utf8.decode? body = some text := ⟨_, Utf8.decode?_encode _⟩
  have hget : s.client.get (s.base.descend ["peers", "bob", "addresses"]) = .ok ⟨200, body⟩ := rfl
  obtain ⟨found, hfound, hall, -⟩ := addresses_by_line hget rfl
  rw [hfound, hall (Response.exists_decode?_iff.mp htext)]
  decide +kernel

/-- One byte that starts no character, in a line of its own, hides the address in the line before it. -/
theorem broken_line_hides_address :
    let base : Url := ⟨"http", "", some (.name "d"), none, [""], none, none⟩
    let body := Utf8.encode "10.0.0.1:80\n" ++ [0xff]
    let s : PeerServer := ⟨base, ⟨fun _ => .ok ⟨200, body⟩⟩⟩
    body.splitOn 0x0a = [Utf8.encode "10.0.0.1:80", [0xff]] ∧
      lineAddress? (Utf8.encode "10.0.0.1:80") = some (.v4 ⟨#v[10, 0, 0, 1], 80⟩) ∧
      s.addresses "bob" = .ok [] := by
  intro base body s
  exact ⟨by decide +kernel, by decide +kernel, by decide +kernel⟩

end PeerServer
end TreeShare.Web
