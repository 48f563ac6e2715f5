import TreeShare.Proofs.Files.Growing
import TreeShare.Proofs.Text.Utf8
import TreeShare.Signing.KeyFile

/-! The life of a key file. A key that was saved or loaded at a path stays the key of that path, however
often the path is asked for a key, and making one leaves what there is. Main statements: `key_file_life`,
`keeps_loadOrGenerate`. -/
namespace TreeShare

namespace Hex

theorem digit_mem {n : Nat} (h : n < 16) : digit n ∈ "0123456789abcdef".toList := by
  have all : ∀ m : Fin 16, digit m.val ∈ "0123456789abcdef".toList := by decide
  exact all ⟨n, h⟩

theorem plain_of_mem_digits {c : Char} (h : c ∈ "0123456789abcdef".toList) :
    c.toNat < 128 ∧ isBlank c = false := by
  have hall : ∀ c ∈ "0123456789abcdef".toList, c.toNat < 128 ∧ isBlank c = false := by simp [isBlank]
  exact hall c h

theorem mem_encodeChars {b : Bytes} {c : Char} (h : c ∈ encodeChars b) :
    c ∈ "0123456789abcdef".toList := by
  induction b with
  | nil => cases h
  | cons x b ih =>
    have hx : x.toNat < 256 := x.toNat_lt
    rw [encodeChars, List.mem_cons, List.mem_cons] at h
    rcases h with rfl | rfl | h
    · exact digit_mem (by omega)
    · exact digit_mem (by omega)
    · exact ih h

end Hex

theorem trimmedChars_of_forall {cs : List Char} (h : ∀ c ∈ cs, isBlank c = false) :
    trimmedChars cs = cs := by
  have hfront {l : List Char} (h : ∀ c ∈ l, isBlank c = false) : l.dropWhile isBlank = l := by
    cases l with
    | nil => rfl
    | cons c l => exact List.dropWhile_cons_of_neg (by simp [h c List.mem_cons_self])
  unfold trimmedChars
  rw [hfront h, hfront fun c hc => h c (List.mem_reverse.mp hc), List.reverse_reverse]

namespace Keypair

variable {scheme : SignatureScheme} {d d' : Disk} {p : Path} {k : Keypair} {fresh : Scalar}

/-- The file of the path has the 64 lower-case digits of the secret and nothing else, and only its owner
may use it. -/
def StoredAt (k : Keypair) (d : Disk) (p : Path) : Prop :=
  ∃ digits : List Char, digits.length = 64 ∧ (∀ c ∈ digits, c ∈ "0123456789abcdef".toList) ∧
    Hex.decodeChars? digits = some k.secret.toList ∧
    d.read p = .ok (Utf8.encode (String.ofList digits)) ∧ d.stat p = .ok ⟨false, 64, 0o600⟩

theorem storedAt_of_holds {loc : Location} (h : d.Holds p loc (Utf8.encode k.fileText) 0o600) :
    k.StoredAt d p := by
  have hlength : (Hex.encodeChars k.secret.toList).length = 64 := by simp [Hex.length_encodeChars]
  have hascii : ∀ c ∈ Hex.encodeChars k.secret.toList, c.toNat < 128 :=
    fun _ hc => (Hex.plain_of_mem_digits (Hex.mem_encodeChars hc)).1
  have hsize : (Utf8.encode k.fileText).length = 64 := by
    unfold fileText Hex.encode
    rw [Utf8.encode_of_ascii hascii, List.length_map, hlength]
  exact ⟨_, hlength, fun _ => Hex.mem_encodeChars, Hex.decodeChars?_encodeChars _, h.read, hsize ▸ h.stat⟩

theorem save_eq (k : Keypair) (p : Path) :
    k.save p = ExceptT.adapt (.file p) (OnDisk.ensureParent p >>= fun _ =>
      OnDisk.writeFile p (Utf8.encode k.fileText) >>= fun _ => OnDisk.setMode p 0o600) := by
  unfold save OnDisk.ensureParent
  cases p.parent? <;> rfl

theorem storedAt_of_save (h : (k.save p).outcome d = (.ok (), d')) : k.StoredAt d' p := by
  rw [save_eq, OnDisk.adapt_eq_ok_iff] at h
  obtain ⟨⟨⟩, d₁, -, h⟩ := OnDisk.bind_eq_ok_iff.mp h
  obtain ⟨⟨⟩, d₂, hwrite, hmode⟩ := OnDisk.bind_eq_ok_iff.mp h
  obtain ⟨loc, mode, -, -, -, hholds⟩ := Disk.write_spec (OnDisk.change_eq_ok_iff.mp hwrite)
  exact storedAt_of_holds (Disk.setMode_spec hholds (OnDisk.change_eq_ok_iff.mp hmode)).2

theorem ofSecret_eq_ok_iff {secret : Scalar} :
    ofSecret scheme secret = .ok k ↔ ofSecret? scheme secret = some k := by
  unfold ofSecret
  split <;> simp [*]

theorem load_of_storedAt (hk : ofSecret? scheme k.secret = some k) (h : k.StoredAt d p) :
    load scheme d p = .ok k := by
  obtain ⟨digits, -, hdigits, hsecret, hread, -⟩ := h
  have hblank : ∀ c ∈ digits, isBlank c = false :=
    fun c hc => (Hex.plain_of_mem_digits (hdigits c hc)).2
  have htext : d.readText p = .ok (String.ofList digits) := by
    unfold Disk.readText
    rw [hread, Except.bind_ok, Utf8.decode?_encode]
    rfl
  have hdecoded : (Hex.decode? (trimmed (String.ofList digits))).bind (Bytes.block? 32) = some k.secret := by
    unfold trimmed Hex.decode?
    rw [String.toList_ofList, String.toList_ofList, trimmedChars_of_forall hblank, hsecret,
      Option.bind_some, Bytes.block?_toList]
  unfold load
  rw [htext, Except.mapError_ok, Except.bind_ok, hdecoded]
  exact ofSecret_eq_ok_iff.mpr hk

theorem contains_of_load (h : load scheme d p = .ok k) : d.contains p = true := by
  obtain ⟨text, htext, -⟩ := Except.bind_eq_ok_iff.mp h
  unfold Disk.readText at htext
  obtain ⟨data, hdata, -⟩ := Except.bind_eq_ok_iff.mp (Except.mapError_eq_ok_iff.mp htext)
  obtain ⟨mode, hstat⟩ := Disk.stat_of_read hdata
  unfold Disk.contains
  rw [hstat]

theorem loadOrGenerate_of_contains (h : d.contains p = true) (fresh : Scalar) :
    (loadOrGenerate scheme fresh p).outcome d = (load scheme d p, d) := by
  change (if d.contains p then liftM (load scheme d p) else _ : OnDisk KeyFileError Keypair).outcome d = _
  rw [if_pos h]
  rfl

theorem loadOrGenerate_of_vacant (h : d.contains p = false) (fresh : Scalar) :
    (loadOrGenerate scheme fresh p).outcome d =
      (liftM (ofSecret scheme fresh) >>= fun k => k.save p >>= fun _ => pure k :
        OnDisk KeyFileError Keypair).outcome d := by
  change (if d.contains p then _ else liftM (ofSecret scheme fresh) >>= fun k => k.save p >>= fun _ => pure k :
    OnDisk KeyFileError Keypair).outcome d = _
  rw [if_neg (by simp [h])]

theorem save_of_loadOrGenerate (h : d.contains p = false)
    (hok : (loadOrGenerate scheme fresh p).outcome d = (.ok k, d')) :
    ofSecret? scheme fresh = some k ∧ (k.save p).outcome d = (.ok (), d') := by
  rw [loadOrGenerate_of_vacant h] at hok
  obtain ⟨made, d₁, hmade, hrest⟩ := OnDisk.bind_eq_ok_iff.mp hok
  obtain ⟨⟨⟩, d₂, hsave, hpure⟩ := OnDisk.bind_eq_ok_iff.mp hrest
  obtain ⟨hsecret, rfl⟩ := Prod.mk.inj ((OnDisk.outcome_liftM _).symm.trans hmade)
  obtain ⟨hk, rfl⟩ := Prod.mk.inj ((OnDisk.outcome_pure _).symm.trans hpure)
  rw [← Except.ok.inj hk]
  exact ⟨ofSecret_eq_ok_iff.mp hsecret, hsave⟩

/-! What a new key takes the place of. -/

theorem keeps_save (hd : d.Rooted) (hp : d.Straight p) (hfree : d.contains p = false) (k : Keypair) :
    d.Keeps ((k.save p).outcome d).2 := by
  rw [save_eq, OnDisk.outcome_adapt_snd]
  refine OnDisk.keeps_ensureParent_bind (fun d₁ hgrown => ?_) p
  rw [OnDisk.outcome_bind]
  unfold OnDisk.writeFile
  rw [OnDisk.outcome_change]
  cases hwrite : d₁.write p (Utf8.encode k.fileText) with
  | error e => exact hgrown.keeps
  | ok d₂ =>
    obtain ⟨loc, mode, hloc, hnone, rfl, hholds⟩ := hgrown.write_spec hd hp hfree hwrite
    have hkept := Disk.keeps_set hloc hnone hgrown.keeps (.file (Utf8.encode k.fileText) mode)
    dsimp only
    unfold OnDisk.setMode
    rw [OnDisk.outcome_change]
    split
    · rename_i d₃ hmode
      obtain ⟨rfl, -⟩ := Disk.setMode_spec hholds hmode
      exact Disk.keeps_set hloc hnone hkept _
    · exact hkept

/-- Where neither the path nor a link goes back up, a call for a key leaves everything that there is. -/
theorem keeps_loadOrGenerate (scheme : SignatureScheme) (fresh : Scalar) (hd : d.Rooted)
    (hp : d.Straight p) : d.Keeps ((loadOrGenerate scheme fresh p).outcome d).2 := by
  cases hcontains : d.contains p with
  | true =>
    rw [loadOrGenerate_of_contains hcontains]
    exact (Disk.Grown.refl d).keeps
  | false =>
    rw [loadOrGenerate_of_vacant hcontains, OnDisk.outcome_bind, OnDisk.outcome_liftM]
    cases ofSecret scheme fresh with
    | error e => exact (Disk.Grown.refl d).keeps
    | ok k =>
      dsimp only
      rw [OnDisk.outcome_bind_pure_snd]
      exact keeps_save hd hp hcontains k

/-- The secret 1, whose point is the generator. -/
def one : Keypair where
  secret := Vector.ofFn fun i => if i = 31 then 1 else 0
  publicKey := Ecdsa.pair Curve.Point.generator.x Curve.Point.generator.y

/-- A way that goes back up may lead past what was missing on it, to a key that is there already. -/
example :
    let keypair : Location := [Utf8.encode "keypair"]
    let d : Disk := ⟨⟨[(keypair, .file (Utf8.encode (Hex.encode (List.replicate 32 2))) 0o600)]⟩⟩
    let p := Path.ofString "new/../keypair"
    d.contains p = false ∧ ((loadOrGenerate .p256 one.secret p).outcome d).2.object? keypair =
      some (.file (Utf8.encode one.fileText) 0o600) := by
  decide +kernel

/-! Asking for the key of a path again and again. -/

/-- A way to ask for the key of a path. -/
inductive Retrieval where
  | load
  | loadOrGenerate (fresh : Scalar)

def Retrieval.on (scheme : SignatureScheme) (p : Path) : Retrieval → OnDisk KeyFileError Keypair
  | load => do Keypair.load scheme (← get) p
  | loadOrGenerate fresh => Keypair.loadOrGenerate scheme fresh p

theorem Retrieval.outcome_of_load (h : Keypair.load scheme d p = .ok k) (r : Retrieval) :
    (r.on scheme p).outcome d = (.ok k, d) := by
  cases r with
  | load =>
    change (Keypair.load scheme d p, d) = _
    rw [h]
  | loadOrGenerate fresh =>
    exact (loadOrGenerate_of_contains (contains_of_load h) fresh).trans (by rw [h])

theorem Retrieval.outcome_mapM_of_load (h : Keypair.load scheme d p = .ok k) (rs : List Retrieval) :
    OnDisk.outcome (rs.mapM (Retrieval.on scheme p)) d = (.ok (rs.map fun _ => k), d) := by
  induction rs with
  | nil => rfl
  | cons r rs ih =>
    rw [List.mapM_cons, OnDisk.outcome_bind, outcome_of_load h]
    dsimp only
    rw [OnDisk.outcome_bind, ih]
    rfl

/-- What brings a key to a path or finds it there. -/
inductive Visit where
  | ask (r : Retrieval)
  | save (k : Keypair)

def Visit.on (scheme : SignatureScheme) (p : Path) : Visit → OnDisk KeyFileError Keypair
  | ask r => r.on scheme p
  | save k => do
    k.save p
    pure k

def Visit.Genuine (scheme : SignatureScheme) : Visit → Prop
  | ask _ => True
  | save k => ofSecret? scheme k.secret = some k

theorem load_of_visit {v : Visit} (hv : v.Genuine scheme) (h : (v.on scheme p).outcome d = (.ok k, d')) :
    load scheme d' p = .ok k := by
  cases v with
  | save kept =>
    obtain ⟨⟨⟩, d₁, hsave, hpure⟩ := OnDisk.bind_eq_ok_iff.mp h
    rw [OnDisk.outcome_pure, Prod.mk.injEq, Except.ok.injEq] at hpure
    obtain ⟨rfl, rfl⟩ := hpure
    exact load_of_storedAt hv (storedAt_of_save hsave)
  | ask r =>
    cases r with
    | load =>
      replace h : (load scheme d p, d) = (.ok k, d') := h
      obtain ⟨hload, rfl⟩ := Prod.mk.inj h
      exact hload
    | loadOrGenerate fresh =>
      cases hcontains : d.contains p with
      | true =>
        have hload := (loadOrGenerate_of_contains hcontains fresh).symm.trans h
        rw [Prod.mk.injEq] at hload
        obtain ⟨hload, rfl⟩ := hload
        exact hload
      | false =>
        obtain ⟨hk, hsave⟩ := save_of_loadOrGenerate hcontains h
        obtain ⟨key, -, rfl⟩ := Option.map_eq_some_iff.mp hk
        exact load_of_storedAt hk (storedAt_of_save hsave)

/-- For every disk and path. If the path exists, the disk stays as it is, whatever comes of the call. A key
that is made or saved is stored whole. And a key that a call succeeds with is the answer of all calls to
come, which change nothing any more. -/
theorem key_file_life (scheme : SignatureScheme) (d : Disk) (p : Path) :
    (d.contains p = true → ∀ fresh, ((loadOrGenerate scheme fresh p).outcome d).2 = d) ∧
    (d.contains p = false → ∀ fresh k d', (loadOrGenerate scheme fresh p).outcome d = (.ok k, d') →
      k.secret = fresh ∧ k.StoredAt d' p) ∧
    (∀ (k : Keypair) d', (k.save p).outcome d = (.ok (), d') → k.StoredAt d' p) ∧
    ∀ (v : Visit) k d', v.Genuine scheme → (v.on scheme p).outcome d = (.ok k, d') →
      ∀ rs : List Retrieval,
        OnDisk.outcome (rs.mapM (Retrieval.on scheme p)) d' = (.ok (rs.map fun _ => k), d') := by
  refine ⟨fun h fresh => ?_, fun h fresh k d' hok => ?_, fun k d' => storedAt_of_save,
    fun v k d' hv h rs => Retrieval.outcome_mapM_of_load (load_of_visit hv h) rs⟩
  · rw [loadOrGenerate_of_contains h]
  · obtain ⟨hk, hsave⟩ := save_of_loadOrGenerate h hok
    obtain ⟨key, -, rfl⟩ := Option.map_eq_some_iff.mp hk
    exact ⟨rfl, storedAt_of_save hsave⟩

/-- A link that leads to a free name, and what becomes of the disk when a key is made there. -/
def linked (below : List (Location × FileObject)) : Disk :=
  ⟨⟨([Utf8.encode "key"], .link (.ofString "store")) :: below⟩⟩

theorem key_file_life_of_link :
    let p := Path.ofString "key"
    let d := linked []
    let d' := linked [([Utf8.encode "store"], .file (Utf8.encode one.fileText) 0o600)]
    d.contains p = false ∧ (loadOrGenerate .p256 one.secret p).outcome d = (.ok one, d') ∧
      one.StoredAt d' p ∧
      OnDisk.outcome ([.load, .loadOrGenerate (Vector.replicate 32 0)].mapM (Retrieval.on .p256 p)) d' =
        (.ok [one, one], d') ∧
      d'.contains p = true ∧ ((loadOrGenerate .p256 (Vector.replicate 32 0) p).outcome d').2 = d' ∧
      (one.save p).outcome d' = (.ok (), d') ∧ one.StoredAt d' p ∧
      OnDisk.outcome ([.loadOrGenerate (Vector.replicate 32 0), .load].mapM (Retrieval.on .p256 p)) d' =
        (.ok [one, one], d') := by
  intro p d d'
  have hfree : d.contains p = false := by decide
  have htaken : d'.contains p = true := by decide
  have hmade : (loadOrGenerate .p256 one.secret p).outcome d = (.ok one, d') := by decide +kernel
  have hsaved : (one.save p).outcome d' = (.ok (), d') := by decide +kernel
  have hvisit : ((Visit.save one).on .p256 p).outcome d' = (.ok one, d') :=
    OnDisk.bind_eq_ok_iff.mpr ⟨(), d', hsaved, rfl⟩
  have hgenuine : (Visit.save one).Genuine .p256 := by
    show ofSecret? .p256 one.secret = some one
    decide +kernel
  obtain ⟨-, hgenerated, -, hkept⟩ := key_file_life .p256 d p
  obtain ⟨hleft, -, hsave, hkept'⟩ := key_file_life .p256 d' p
  exact ⟨hfree, hmade, (hgenerated hfree _ _ _ hmade).2,
    hkept (.ask (.loadOrGenerate one.secret)) one d' trivial hmade _,
    htaken, hleft htaken _, hsaved, hsave one d' hsaved, hkept' (.save one) one d' hgenuine hvisit _⟩

end Keypair
end TreeShare
