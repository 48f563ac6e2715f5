import TreeShare.Config.File
import TreeShare.Proofs.Config.Overrides
import TreeShare.Proofs.Config.Text
import TreeShare.Proofs.Files.Growing

/-! The configuration file with the defaults, which is written where there is none. Main statement:
`load_seeded`. -/
namespace TreeShare

namespace Environment

variable (env : Environment)

theorem isText_of_path? {name : String} {p : Path} (h : env.path? name = some p) : p.IsText := by
  obtain ⟨s, -, rfl⟩ := Option.map_eq_some_iff.mp h
  exact Path.isText_ofString s

theorem isText_configDirectory : env.configDirectory.IsText := by
  unfold configDirectory
  refine Path.IsText.join ?_ (Path.isText_ofString _)
  split
  · exact env.isText_of_path? ‹_›
  · refine Path.IsText.join ?_ (Path.isText_ofString _)
    cases h : env.path? "HOME" with
    | none => exact Path.isText_ofString _
    | some p => exact env.isText_of_path? h

end Environment

namespace Config

variable {env : Environment} {d d' : Disk} {p : Path}

theorem storable_standard (env : Environment) : (standard env).Storable where
  keyFile := env.isText_configDirectory.join (Path.isText_ofString "keypair")
  directoryTimeout := show (10 : UInt64).toNat < 9223372036854775808 by decide
  sharedDirectory := ⟨"", rfl⟩
  replyTimeout := show (500 : UInt64).toNat < 9223372036854775808 by decide
  keepAlive := show (30 : UInt64).toNat < 9223372036854775808 by decide
  reapInterval := show (1000 : UInt64).toNat < 9223372036854775808 by decide

def writeStandard (env : Environment) : OnDisk ConfigError Unit :=
  ExceptT.adapt (.writeFailed env.configFile) (OnDisk.ensureParent env.configFile >>= fun _ =>
    OnDisk.writeFile env.configFile (Utf8.encode (standard env).written))

theorem writeIfMissing_eq (env : Environment) (d : Disk) :
    (writeIfMissing env).outcome d =
      (if d.contains env.configFile then pure env.configFile
        else writeStandard env >>= fun _ => pure env.configFile : OnDisk ConfigError Path).outcome d := by
  unfold writeIfMissing writeStandard OnDisk.ensureParent
  dsimp only
  cases env.configFile.parent?
  all_goals
    change OnDisk.outcome (if !d.contains env.configFile then _ else _ : OnDisk ConfigError Path) d = _
    cases d.contains env.configFile <;> rfl

theorem writeIfMissing_of_contains (h : d.contains env.configFile = true) :
    (writeIfMissing env).outcome d = (.ok env.configFile, d) := by
  rw [writeIfMissing_eq, if_pos h]
  rfl

theorem writeIfMissing_of_vacant (h : d.contains env.configFile = false) :
    (writeIfMissing env).outcome d = (writeStandard env >>= fun _ => pure env.configFile).outcome d := by
  rw [writeIfMissing_eq, if_neg (by simp [h])]

theorem holds_of_writeStandard (h : (writeStandard env).outcome d = (.ok (), d')) :
    ∃ loc mode, d'.Holds env.configFile loc (Utf8.encode (standard env).written) mode := by
  obtain ⟨⟨⟩, d₁, -, hwrite⟩ := OnDisk.bind_eq_ok_iff.mp (OnDisk.adapt_eq_ok_iff.mp h)
  obtain ⟨loc, mode, -, -, -, hholds⟩ := Disk.write_spec (OnDisk.change_eq_ok_iff.mp hwrite)
  exact ⟨loc, mode, hholds⟩

theorem keeps_writeStandard (hd : d.Rooted) (hp : d.Straight env.configFile)
    (hfree : d.contains env.configFile = false) : d.Keeps ((writeStandard env).outcome d).2 := by
  unfold writeStandard
  rw [OnDisk.outcome_adapt_snd]
  refine OnDisk.keeps_ensureParent_bind (fun d₁ hgrown => ?_) env.configFile
  unfold OnDisk.writeFile
  rw [OnDisk.outcome_change]
  cases hwrite : d₁.write env.configFile (Utf8.encode (standard env).written) with
  | error e => exact hgrown.keeps
  | ok d₂ =>
    obtain ⟨loc, mode, hloc, hnone, rfl, -⟩ := hgrown.write_spec hd hp hfree hwrite
    exact Disk.keeps_set hloc hnone hgrown.keeps _

theorem keeps_writeIfMissing (hd : d.Rooted) (hp : d.Straight env.configFile) :
    d.Keeps ((writeIfMissing env).outcome d).2 := by
  cases hcontains : d.contains env.configFile with
  | true =>
    rw [writeIfMissing_of_contains hcontains]
    exact (Disk.Grown.refl d).keeps
  | false =>
    rw [writeIfMissing_of_vacant hcontains, OnDisk.outcome_bind_pure_snd]
    exact keeps_writeStandard hd hp hcontains

theorem load_of_holds {c : Config} (hc : c.Storable) {loc : Location} {mode : Nat}
    (h : d.Holds env.configFile loc (Utf8.encode c.written) mode) : load env d = .ok (c.overridden env) := by
  have htext : d.readText env.configFile = .ok c.written := by
    unfold Disk.readText
    rw [h.read, Except.bind_ok, Utf8.decode?_encode]
    rfl
  have hfile : fromFile env d env.configFile = .ok c := by
    unfold fromFile
    rw [htext, Except.mapError_ok, Except.bind_ok, parse_of_written _ hc]
    rfl
  unfold load
  dsimp only
  rw [if_pos h.contains, hfile]
  rfl

/-- For every environment and disk. A file that is there is left as it is, and where neither its path nor a
link goes back up, so is everything else, whatever comes of the call. And when a call has written the file, it
is loaded as the defaults with exactly those settings replaced of which the variable is set and can be read. -/
theorem load_seeded (env : Environment) (d : Disk) :
    (d.contains env.configFile = true → (writeIfMissing env).outcome d = (.ok env.configFile, d)) ∧
    (d.Rooted → d.Straight env.configFile → d.Keeps ((writeIfMissing env).outcome d).2) ∧
    (d.contains env.configFile = false → ∀ p d', (writeIfMissing env).outcome d = (.ok p, d') →
      p = env.configFile ∧ d'.read p = .ok (Utf8.encode (standard env).written) ∧
        ∃ c, load env d' = .ok c ∧ ∀ c', Overrides env (standard env) c' ↔ c' = c) := by
  refine ⟨writeIfMissing_of_contains, keeps_writeIfMissing, fun hfree p d' hok => ?_⟩
  rw [writeIfMissing_of_vacant hfree] at hok
  obtain ⟨⟨⟩, d₁, hwritten, hpure⟩ := OnDisk.bind_eq_ok_iff.mp hok
  obtain ⟨hpath, rfl⟩ := Prod.mk.inj hpure
  obtain rfl := Except.ok.inj hpath
  obtain ⟨loc, mode, hholds⟩ := holds_of_writeStandard hwritten
  exact ⟨rfl, hholds.read, _, load_of_holds (storable_standard env) hholds, fun c' => overrides_iff⟩

/-- The path that is written has marks of both kinds, a backslash and a line break; of the variables one can be
read and two cannot. -/
theorem load_seeded_of_marks :
    let env : Environment := ⟨fun name => [("XDG_CONFIG_HOME", "/it's \"\"\"a\"\"\"\\\n'''"),
      ("ARBOR_NETWORK__LISTEN_PORT", "+0080"), ("ARBOR_NETWORK__RELAY_TRAVERSAL", "True"),
      ("ARBOR_RELIABILITY__REEMISSIONS", "4294967296")].lookup name⟩
    let c := { standard env with network.listenPort := 80 }
    Disk.empty.contains env.configFile = false ∧
    ∃ d', (writeIfMissing env).outcome .empty = (.ok env.configFile, d') ∧
      d'.read env.configFile = .ok (Utf8.encode (standard env).written) ∧ load env d' = .ok c ∧
      Disk.empty.Keeps d' ∧ d'.contains env.configFile = true ∧
      (writeIfMissing env).outcome d' = (.ok env.configFile, d') := by
  intro env c
  have hfree : Disk.empty.contains env.configFile = false := by decide +kernel
  have hok : ((writeIfMissing env).outcome .empty).1 = .ok env.configFile := by decide +kernel
  have hthere : ((writeIfMissing env).outcome .empty).2.contains env.configFile = true := by decide +kernel
  have hvariables : c = (standard env).overridden env := by decide +kernel
  have hpath : Path.dotDot ∉ Disk.steps env.configFile := by decide +kernel
  clear_value c env
  have hrooted : Disk.empty.Rooted := fun loc n h => absurd (if_neg (by simp)) h
  have hlink : ∀ loc target, Disk.empty.object? loc = some (.link target) →
      Path.dotDot ∉ Disk.steps target := by
    intro loc target h
    unfold Disk.object? at h
    split at h <;> cases h
  obtain ⟨-, hkeeps, hseeded⟩ := load_seeded env .empty
  have hkept := hkeeps hrooted ⟨hpath, hlink⟩
  generalize (writeIfMissing env).outcome .empty = written at hok hthere hkept hseeded
  obtain ⟨result, d'⟩ := written
  obtain rfl : result = .ok env.configFile := hok
  obtain ⟨-, hread, c', hload, hc'⟩ := hseeded hfree _ d' rfl
  obtain rfl := (hc' c).mp (overrides_iff.mpr hvariables)
  exact ⟨hfree, d', rfl, hread, hload, hkept, hthere, (load_seeded env d').1 hthere⟩

end Config
end TreeShare
