import TreeShare.Proofs.Datum.Reencoding
import TreeShare.Proofs.Text.Utf8

/-! Bodies that are written and read again, and what a passed integrity check says. A datum comes back
from its body exactly if it is within the bounds of its kind, and only a name that goes into no slot
leaves a datum without a body. Two bodies that pass the check with one hash are a collision of the digest.
Main statements: `Datum.parse_written`, `Datum.integrity`. -/
namespace TreeShare

namespace Utf8

theorem zero_mem_encode {s : String} : (0 : UInt8) ∈ encode s ↔ '\x00' ∈ s.toList :=
  ascii_mem_encode (d := '\x00') (by decide)

end Utf8

namespace Slot

inductive Unfit (name : String) : NameError → Prop where
  | empty (nothing : name = "") : Unfit name .empty
  | tooLong (long : 32 < (Utf8.encode name).length) : Unfit name (.tooLong name)
  | hasNul (short : (Utf8.encode name).length ≤ 32) (nul : '\x00' ∈ name.toList) :
    Unfit name (.hasNul name)

theorem ofName_eq_error_iff {name : String} {cause : NameError} :
    ofName name = .error cause ↔ Unfit name cause := by
  unfold ofName
  simp only [Utf8.encode_eq_nil_iff, Utf8.zero_mem_encode]
  constructor
  · intro h
    split at h
    · cases h; exact .empty ‹_›
    split at h
    · cases h; exact .tooLong ‹_›
    split at h
    · cases h; exact .hasNul (by omega) ‹_›
    · contradiction
  · rintro (hempty | hlong | ⟨hshort, hnul⟩)
    · rw [if_pos hempty]
    · have hne : name ≠ "" := by rintro rfl; simp at hlong
      rw [if_neg hne, if_pos hlong]
    · have hne : name ≠ "" := by rintro rfl; simp at hnul
      rw [if_neg hne, if_neg (by omega), if_pos hnul]

end Slot

namespace DirectoryEntry

theorem toBytes_eq_error_iff {e : DirectoryEntry} {cause : NameError} :
    e.toBytes = .error cause ↔ Slot.Unfit e.name cause := by
  rw [← Slot.ofName_eq_error_iff, toBytes]
  cases Slot.ofName e.name <;> simp [Except.map]

theorem allToBytes_eq_error_iff {entries : List DirectoryEntry} {cause : NameError} :
    allToBytes entries = .error cause ↔
      ∃ before entry later, entries = before ++ entry :: later ∧
        (∀ e ∈ before, ∀ reason, ¬ Slot.Unfit e.name reason) ∧ Slot.Unfit entry.name cause := by
  induction entries with
  | nil => simp [allToBytes]
  | cons e es ih =>
    unfold allToBytes
    cases hfirst : e.toBytes with
    | error reason =>
      have hunfit := toBytes_eq_error_iff.mp hfirst
      simp only [Except.bind_error, Except.error.injEq]
      constructor
      · rintro rfl
        exact ⟨[], e, es, rfl, by simp, hunfit⟩
      · rintro ⟨_ | ⟨first, before⟩, entry, later, hsplit, hfit, hentry⟩
        · obtain ⟨rfl, -⟩ := List.cons.inj hsplit
          exact Except.error.inj (hfirst.symm.trans (toBytes_eq_error_iff.mpr hentry))
        · obtain ⟨rfl, -⟩ := List.cons.inj hsplit
          exact absurd hunfit (hfit _ (by simp) _)
    | ok b =>
      have hfits : ∀ reason, ¬ Slot.Unfit e.name reason := fun reason h => by
        rw [toBytes_eq_error_iff.mpr h] at hfirst
        contradiction
      have hrest : (Except.ok b >>= fun b => do pure (b ++ (← allToBytes es))) =
          (.error cause : Except NameError Bytes) ↔ allToBytes es = .error cause := by
        cases allToBytes es <;> simp [pure, Except.pure]
      rw [hrest, ih]
      constructor
      · rintro ⟨before, entry, later, rfl, hfit, hentry⟩
        exact ⟨e :: before, entry, later, rfl, List.forall_mem_cons.mpr ⟨hfits, hfit⟩, hentry⟩
      · rintro ⟨_ | ⟨first, before⟩, entry, later, hsplit, hfit, hentry⟩
        · obtain ⟨rfl, -⟩ := List.cons.inj hsplit
          exact absurd hentry (hfits _)
        · obtain ⟨rfl, rfl⟩ := List.cons.inj hsplit
          exact ⟨before, entry, later, rfl, (List.forall_mem_cons.mp hfit).2, hentry⟩

end DirectoryEntry

namespace Datum

theorem toBody_eq_error_iff {d : Datum} {cause : DatumError} :
    d.toBody = .error cause ↔
      ∃ entries reason, d.content = .directory entries ∧
        DirectoryEntry.allToBytes entries = .error reason ∧ cause = .badName reason := by
  obtain ⟨hash, content⟩ := d
  unfold toBody
  cases content with
  | chunk data => simp [Content.payload, pure, Except.pure]
  | tree children => simp [Content.payload, pure, Except.pure]
  | directory entries =>
    simp only [Content.payload, Content.directory.injEq, exists_and_left, exists_eq_left']
    cases DirectoryEntry.allToBytes entries <;> simp [pure, Except.pure, eq_comm]

/-- A datum comes back from its body exactly if it is within the bounds of its kind, whatever hash it
states; beyond them its body is refused for its size. A datum has no body exactly if it is a directory with
a name that goes into no slot, and the first such name is the error. -/
theorem parse_written (d : Datum) :
    (∀ body, d.toBody = .ok body →
      (parse body = .ok d ↔
        match d.content with
        | .chunk data => data.length ≤ 1024
        | .tree children => 2 ≤ children.length ∧ children.length ≤ 32
        | .directory entries => entries.length ≤ 16) ∧
      ∀ cause, parse body = .error cause ↔ d.content.checkSize = .error cause) ∧
    ∀ cause, d.toBody = .error cause ↔
      ∃ before entry later reason, d.content = .directory (before ++ entry :: later) ∧
        (∀ e ∈ before, ∀ r, ¬ Slot.Unfit e.name r) ∧ Slot.Unfit entry.name reason ∧
        cause = .badName reason := by
  refine ⟨fun body hbody => ⟨?_, fun cause => ?_⟩, fun cause => ?_⟩
  · have hbounds : parse body = .ok d ↔ d.content.InBounds := by
      rw [parse_of_toBody_eq hbody, Content.InBounds]
      cases d.content.checkSize <;> simp [Except.map]
    rw [hbounds]
    split <;> rename_i hcontent <;> simp [hcontent]
  · rw [parse_of_toBody_eq hbody]
    cases d.content.checkSize <;> simp [Except.map]
  · rw [toBody_eq_error_iff]
    constructor
    · rintro ⟨entries, reason, hcontent, herror, rfl⟩
      obtain ⟨before, entry, later, rfl, hfit, hunfit⟩ :=
        DirectoryEntry.allToBytes_eq_error_iff.mp herror
      exact ⟨before, entry, later, reason, hcontent, hfit, hunfit, rfl⟩
    · rintro ⟨before, entry, later, reason, hcontent, hfit, hunfit, rfl⟩
      exact ⟨_, reason, hcontent,
        DirectoryEntry.allToBytes_eq_error_iff.mpr ⟨before, entry, later, rfl, hfit, hunfit⟩, rfl⟩

/-- Two names, one that fills a slot and one that is too long for it, and a chunk of a byte too many that
states a hash of its own. -/
theorem parse_written_at_the_bounds :
    let hash : Digest := Vector.replicate 32 7
    let wide := String.ofList (List.replicate 32 'a')
    let full : Datum := ⟨hash, .directory [⟨wide, hash⟩]⟩
    let overlong : Datum := ⟨hash, .directory [⟨wide, hash⟩, ⟨wide ++ "é", hash⟩]⟩
    let big : Datum := ⟨hash, .chunk (List.replicate 1025 1)⟩
    (∃ body, full.toBody = .ok body ∧ parse body = .ok full) ∧
      overlong.toBody = .error (.badName (.tooLong (wide ++ "é"))) ∧
      ∃ body, big.toBody = .ok body ∧ parse body = .error (.chunkTooLarge 1025) := by
  intro hash wide full overlong big
  obtain ⟨body, hbody⟩ : ∃ body, full.toBody = .ok body := ⟨_, rfl⟩
  obtain ⟨large, hlarge⟩ : ∃ body, big.toBody = .ok body := ⟨_, rfl⟩
  have hwide : ∀ reason, ¬ Slot.Unfit wide reason := by
    intro reason h
    have hslot : Slot.ofName wide = .ok (Vector.replicate 32 97) := by decide +kernel
    rw [Slot.ofName_eq_error_iff.mpr h] at hslot
    contradiction
  refine ⟨⟨body, hbody, (((parse_written full).1 body hbody).1).mpr (by decide)⟩,
    ((parse_written overlong).2 _).mpr
      ⟨[⟨wide, hash⟩], ⟨wide ++ "é", hash⟩, [], .tooLong (wide ++ "é"), rfl, ?_, ?_, rfl⟩,
    large, hlarge, (((parse_written big).1 large hlarge).2 _).mpr (by decide +kernel)⟩
  · simpa using hwide
  · exact .tooLong (by decide +kernel)

theorem checkIntegrity_of_ne {body : Bytes}
    (h : (Sha256.digest (body.drop 32)).toList ≠ body.take 32) :
    checkIntegrity body = .error (if body.length < 33 then .tooShort body.length else .corrupted) := by
  unfold checkIntegrity
  rw [if_pos h]
  split <;> rfl

/-- Two different inputs with one digest. -/
structure Collision (a b : Bytes) : Prop where
  distinct : a ≠ b
  digest : Sha256.digest a = Sha256.digest b

/-- What is made of a content has a body that passes the check. A body passes exactly if it is long enough,
states the digest of the rest and is well formed. Of two bodies that state one hash, if both pass, the rest
of them is a collision; so whatever is changed after the hash of a body that passes, the changed body fails
unless the change is a collision. -/
theorem integrity (c : Content) (body other : Bytes) :
    (∀ d, ofContent c = .ok d → ∃ b, d.toBody = .ok b ∧ checkIntegrity b = .ok ()) ∧
    (checkIntegrity body = .ok () ↔
      33 ≤ body.length ∧ (Sha256.digest (body.drop 32)).toList = body.take 32 ∧
        ∃ d, parse body = .ok d) ∧
    (checkIntegrity body = .ok () → other ≠ body → other.take 32 = body.take 32 →
      (checkIntegrity other = .ok () → Collision (body.drop 32) (other.drop 32)) ∧
      (¬ Collision (body.drop 32) (other.drop 32) →
        checkIntegrity other =
          .error (if other.length < 33 then .tooShort other.length else .corrupted))) := by
  refine ⟨fun d hd => ?_, ?_, fun hbody hne hstated => ?_⟩
  · obtain ⟨b, hb, -, hpasses⟩ := checkIntegrity_of_ofContent hd
    exact ⟨b, hb, hpasses⟩
  · rw [checkIntegrity_eq_ok_iff]
    exact ⟨fun ⟨hdigest, d, hd⟩ => ⟨length_of_parse hd, hdigest, d, hd⟩, And.right⟩
  · have hdistinct : body.drop 32 ≠ other.drop 32 := by
      intro hrest
      apply hne
      rw [← List.take_append_drop 32 other, hstated, ← hrest, List.take_append_drop]
    have hdigest := (checkIntegrity_eq_ok_iff.mp hbody).1
    refine ⟨fun hother => ⟨hdistinct, ?_⟩, fun hcollision => checkIntegrity_of_ne fun hsame => ?_⟩
    · apply Vector.toList_inj.mp
      rw [hdigest, (checkIntegrity_eq_ok_iff.mp hother).1, hstated]
    · refine hcollision ⟨hdistinct, Vector.toList_inj.mp ?_⟩
      rw [hdigest, hsame, hstated]

/-- A chunk of three bytes passes the check, and fails it with the last of them changed. -/
theorem integrity_of_a_changed_byte :
    let c : Content := .chunk [1, 2, 3]
    let stated := (hashOf c.kind [1, 2, 3]).toList
    let body := stated ++ [0, 1, 2, 3]
    let other := stated ++ [0, 1, 2, 4]
    ofContent c = .ok ⟨hashOf c.kind [1, 2, 3], c⟩ ∧ checkIntegrity body = .ok () ∧
      33 ≤ body.length ∧ ¬ Collision (body.drop 32) (other.drop 32) ∧
      checkIntegrity other = .error .corrupted := by
  intro c stated body other
  have hmade : ofContent c = .ok ⟨hashOf c.kind [1, 2, 3], c⟩ := rfl
  obtain ⟨made, passes, changed⟩ := integrity c body other
  have hpasses : checkIntegrity body = .ok () := by
    obtain ⟨b, hb, hchecked⟩ := made _ hmade
    cases Except.ok.inj hb
    exact hchecked
  have hcollision : ¬ Collision (body.drop 32) (other.drop 32) :=
    fun h => absurd h.digest (by decide +kernel)
  exact ⟨hmade, hpasses, (passes.mp hpasses).1, hcollision,
    (changed hpasses (by decide +kernel) (by simp [body, other, stated])).2 hcollision⟩

end Datum
end TreeShare
