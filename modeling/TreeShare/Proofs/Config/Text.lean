import TreeShare.Config.Text
import TreeShare.Proofs.Text.Lossy
import TreeShare.Proofs.Toml.Sections

/-! A configuration that is written in full is read back, whatever the defaults. Main statement:
`parse_of_written`. -/
namespace TreeShare

namespace Path

variable {p q : Path}

def IsText (p : Path) : Prop := ∃ s, p = .ofString s

theorem isText_ofString (s : String) : (ofString s).IsText := ⟨s, rfl⟩

theorem ofString_text (hp : p.IsText) : ofString p.text = p := by
  obtain ⟨s, rfl⟩ := hp
  unfold text ofString
  rw [Utf8.lossy_encode]

theorem IsText.join (hp : p.IsText) (hq : q.IsText) : (p.join q).IsText := by
  obtain ⟨s, rfl⟩ := hp
  obtain ⟨t, rfl⟩ := hq
  unfold Path.join
  split
  · exact isText_ofString t
  split
  · exact ⟨s ++ t, congrArg Path.mk (Utf8.encode_append s t).symm⟩
  · refine ⟨s ++ "/" ++ t, congrArg Path.mk ?_⟩
    rw [Utf8.encode_append, Utf8.encode_append, List.append_assoc]
    rfl

end Path

namespace Toml

instance (k : String) : Decidable (IsBare k) :=
  decidable_of_iff (k.toList ≠ [] ∧ k.toList.all isBareKey = true)
    ⟨fun h => ⟨h.1, List.all_eq_true.mp h.2⟩, fun h => ⟨h.ne_nil, List.all_eq_true.mpr h.bare⟩⟩

theorem wellFormed_zip {name : String} {keys : List String} {values : List Plain} (hname : IsBare name)
    (hkeys : ∀ k ∈ keys, IsBare k) (hdistinct : keys.Nodup) (hlength : keys.length = values.length)
    (hfits : ∀ p ∈ values, p.Fits) : (⟨name, keys.zip values⟩ : Toml.Section).WellFormed where
  name := hname
  keys := fun _ hrow => hkeys _ (List.of_mem_zip hrow).1
  distinct := by
    rw [List.map_fst_zip (Nat.le_of_eq hlength)]
    exact hdistinct
  fits := fun _ hrow => hfits _ (List.of_mem_zip hrow).2

end Toml

namespace Config

open Toml

/-- What a configuration must be like to be written. -/
structure Storable (c : Config) : Prop where
  keyFile : c.identity.keyFile.IsText
  directoryTimeout : c.network.directoryTimeoutSecs.toNat < 9223372036854775808
  sharedDirectory : c.export.sharedDirectory.IsText
  replyTimeout : c.reliability.replyTimeoutMs.toNat < 9223372036854775808
  keepAlive : c.reliability.keepAliveSecs.toNat < 9223372036854775808
  reapInterval : c.reliability.reapIntervalMs.toNat < 9223372036854775808

variable {c : Config}

theorem wellFormed_sections (hc : c.Storable) : ∀ s ∈ c.sections, s.WellFormed := by
  have hport := c.network.listenPort.toNat_lt
  have hreemissions := c.reliability.reemissions.toNat_lt
  have hrounds := c.reliability.traversalRounds.toNat_lt
  unfold sections
  simp only [List.forall_mem_cons]
  refine ⟨?_, ?_, ?_, ?_, fun _ h => nomatch h⟩
  · exact wellFormed_zip (by decide) (by decide) (by decide) rfl (by simp [Plain.Fits])
  · refine wellFormed_zip (by decide) (by decide) (by decide) rfl ?_
    simp [Plain.Fits, hc.directoryTimeout]
    omega
  · exact wellFormed_zip (by decide) (by decide) (by decide) rfl (by simp [Plain.Fits])
  · refine wellFormed_zip (by decide) (by decide) (by decide) rfl ?_
    simp [Plain.Fits, hc.replyTimeout, hc.keepAlive, hc.reapInterval]
    omega

/-! Fields. -/

theorem map_lookup_zip {names : List String} {values : List Value} (hdistinct : names.Nodup)
    (hlength : names.length = values.length) :
    names.map (List.lookup · (names.zip values)) = values.map some := by
  induction names generalizing values with
  | nil =>
    rw [List.length_eq_zero_iff.mp hlength.symm]
    rfl
  | cons name names ih =>
    obtain ⟨v, values, rfl⟩ := List.exists_cons_of_length_eq_add_one hlength.symm
    obtain ⟨hname, hdistinct⟩ := List.nodup_cons.mp hdistinct
    have hlater : ∀ n ∈ names, ((name, v) :: names.zip values).lookup n = (names.zip values).lookup n := by
      intro n hn
      rw [List.lookup_cons, beq_eq_false_iff_ne.mpr (ne_of_mem_of_not_mem hn hname)]
    rw [List.zip_cons_cons, List.map_cons, List.lookup_cons_self, List.map_congr_left hlater,
      ih hdistinct (Nat.succ_inj.mp hlength), List.map_cons]

theorem fieldValues_zip {names : List String} {values : List Value} (hdistinct : names.Nodup)
    (hlength : names.length = values.length) :
    fieldValues names (.table .written (names.zip values)) = some (values.map some) :=
  congrArg some (map_lookup_zip hdistinct hlength)

/-! Fields that are there. -/

theorem number?_natCast {bound n : Nat} (h : n < bound) : number? bound (.integer n) = some n := by
  unfold number?
  simp [h]

theorem field_text (missing s : String) : field text? missing (some (.text s)) = some s := rfl

theorem field_flag (missing b : Bool) : field flag? missing (some (.boolean b)) = some b := rfl

theorem field_path {p : Path} (hp : p.IsText) (missing : Path) :
    field path? missing (some (.text p.text)) = some p :=
  congrArg some (Path.ofString_text hp)

theorem field_port (missing n : UInt16) : field port? missing (some (.integer n.toNat)) = some n := by
  rw [field, port?, number?_natCast n.toNat_lt, Option.map_some, UInt16.ofNat_toNat]

theorem field_count (missing n : UInt32) : field count? missing (some (.integer n.toNat)) = some n := by
  rw [field, count?, number?_natCast n.toNat_lt, Option.map_some, UInt32.ofNat_toNat]

theorem field_span (missing n : UInt64) : field span? missing (some (.integer n.toNat)) = some n := by
  rw [field, span?, number?_natCast n.toNat_lt, Option.map_some, UInt64.ofNat_toNat]

/-! Sections from their fields. The values are variables here, so that nothing computes with the bounds of the
numbers. -/

section

variable {v : Value} {v₁ v₂ v₃ v₄ v₅ v₆ : Option Value}

theorem identity?_eq {d i : IdentitySection} (hv : fieldValues identityNames v = some [v₁, v₂])
    (h₁ : field text? d.peerName v₁ = some i.peerName) (h₂ : field path? d.keyFile v₂ = some i.keyFile) :
    identity? d v = some i := by
  simp [identity?, hv, h₁, h₂]

theorem network?_eq {d n : NetworkSection} (hv : fieldValues networkNames v = some [v₁, v₂, v₃, v₄, v₅])
    (h₁ : field port? d.listenPort v₁ = some n.listenPort)
    (h₂ : field text? d.directoryUrl v₂ = some n.directoryUrl)
    (h₃ : field text? d.serverName v₃ = some n.serverName)
    (h₄ : field span? d.directoryTimeoutSecs v₄ = some n.directoryTimeoutSecs)
    (h₅ : field flag? d.relayTraversal v₅ = some n.relayTraversal) : network? d v = some n := by
  simp [network?, hv, h₁, h₂, h₃, h₄, h₅]

theorem export?_eq {d e : ExportSection} (hv : fieldValues exportNames v = some [v₁])
    (h₁ : field path? d.sharedDirectory v₁ = some e.sharedDirectory) : export? d v = some e := by
  simp [export?, hv, h₁]

theorem reliability?_eq {d r : ReliabilitySection}
    (hv : fieldValues reliabilityNames v = some [v₁, v₂, v₃, v₄, v₅, v₆])
    (h₁ : field count? d.reemissions v₁ = some r.reemissions)
    (h₂ : field span? d.replyTimeoutMs v₂ = some r.replyTimeoutMs)
    (h₃ : field count? d.traversalRounds v₃ = some r.traversalRounds)
    (h₄ : field span? d.keepAliveSecs v₄ = some r.keepAliveSecs)
    (h₅ : field span? d.reapIntervalMs v₅ = some r.reapIntervalMs)
    (h₆ : field flag? d.signMessages v₆ = some r.signMessages) : reliability? d v = some r := by
  simp [reliability?, hv, h₁, h₂, h₃, h₄, h₅, h₆]

theorem parse_eq {d : Config} {text : String} {w₁ w₂ w₃ w₄ : Value} (hv : Toml.parse text = some v)
    (hsections : fieldValues sectionNames v = some [some w₁, some w₂, some w₃, some w₄])
    (h₁ : identity? d.identity w₁ = some c.identity) (h₂ : network? d.network w₂ = some c.network)
    (h₃ : export? d.export w₃ = some c.export) (h₄ : reliability? d.reliability w₄ = some c.reliability) :
    parse d text = some c := by
  simp [parse, hv, hsections, field, h₁, h₂, h₃, h₄]

end

theorem parse_of_written (d : Config) (hc : c.Storable) : parse d c.written = some c := by
  have htext : Toml.parse c.written = some (.table .written (c.sections.map Section.table)) :=
    Toml.parse_of_written (wellFormed_sections hc) (show sectionNames.Nodup by decide)
  have hsections := @fieldValues_zip sectionNames (c.sections.map fun s => s.table.2) (by decide) rfl
  have hidentity := @fieldValues_zip identityNames [.text c.identity.peerName, .text c.identity.keyFile.text]
    (by decide) rfl
  have hnetwork := @fieldValues_zip networkNames [.integer c.network.listenPort.toNat,
    .text c.network.directoryUrl, .text c.network.serverName, .integer c.network.directoryTimeoutSecs.toNat,
    .boolean c.network.relayTraversal] (by decide) rfl
  have hexport := @fieldValues_zip exportNames [.text c.export.sharedDirectory.text] (by decide) rfl
  have hreliability := @fieldValues_zip reliabilityNames [.integer c.reliability.reemissions.toNat,
    .integer c.reliability.replyTimeoutMs.toNat, .integer c.reliability.traversalRounds.toNat,
    .integer c.reliability.keepAliveSecs.toNat, .integer c.reliability.reapIntervalMs.toNat,
    .boolean c.reliability.signMessages] (by decide) rfl
  refine parse_eq htext hsections ?_ ?_ ?_ ?_
  · exact identity?_eq hidentity (field_text ..) (field_path hc.keyFile _)
  · exact network?_eq hnetwork (field_port ..) (field_text ..) (field_text ..) (field_span ..) (field_flag ..)
  · exact export?_eq hexport (field_path hc.sharedDirectory _)
  · exact reliability?_eq hreliability (field_count ..) (field_span ..) (field_count ..) (field_span ..)
      (field_span ..) (field_flag ..)

end Config
end TreeShare
