import TreeShare.Engine.Proc

/-! Programs as dialogues: what a program has become after some answers, how much it may still ask, and
what its questions rest on. -/
namespace TreeShare

structure Asked where
  op : Op
  answer : op.Answer

namespace Op

/-- A task waits only for tickets it was given, cancels only what it registered, and remembers only keys
that the directory told it. -/
def Justified (log : List Asked) : Op → Prop
  | awaitReply t _ => ∃ key, ⟨register key, t⟩ ∈ log
  | cancel key => ∃ t, ⟨register key, t⟩ ∈ log
  | rememberKey peer key => ⟨findKey peer, .ok key⟩ ∈ log
  | _ => True

theorem Justified.mono {log more : List Asked} (hsub : log ⊆ more) {op : Op}
    (h : op.Justified log) : op.Justified more := by
  cases op <;> try exact trivial
  case awaitReply => exact h.imp fun _ hmem => hsub hmem
  case cancel => exact h.imp fun _ hmem => hsub hmem
  case rememberKey => exact hsub h

end Op

namespace Proc

variable {α β : Type}

/-- One program becomes another once questions are answered, in the order of the list. -/
inductive After : Proc α → List Asked → Proc α → Prop
  | start (p : Proc α) : After p [] p
  | ask {op : Op} {next : op.Answer → Proc α} {answer : op.Answer} {log : List Asked} {q : Proc α} :
      After (next answer) log q → After (.ask op next) (⟨op, answer⟩ :: log) q

theorem After.append {p q r : Proc α} {log more : List Asked} (h : p.After log q)
    (hq : q.After more r) : p.After (log ++ more) r := by
  induction h with
  | start => exact hq
  | ask _ ih => exact .ask (ih hq)

theorem After.unique {p q r : Proc α} {log : List Asked} (h : p.After log q) (h' : p.After log r) :
    q = r := by
  induction h with
  | start =>
    cases h'
    rfl
  | ask _ ih =>
    cases h' with
    | ask hnext => exact ih hnext

theorem After.split {p q : Proc α} {log more : List Asked} (h : p.After (log ++ more) q) :
    ∃ r, p.After log r ∧ r.After more q := by
  induction log generalizing p with
  | nil => exact ⟨p, .start p, h⟩
  | cons asked log ih =>
    obtain ⟨⟩ | ⟨hnext⟩ := h
    obtain ⟨r, hr, hq⟩ := ih hnext
    exact ⟨r, .ask hr, hq⟩

theorem after_done_iff {a : α} {log : List Asked} {q : Proc α} :
    (done a).After log q ↔ log = [] ∧ q = .done a := by
  constructor
  · rintro ⟨⟩
    exact ⟨rfl, rfl⟩
  · rintro ⟨rfl, rfl⟩
    exact .start _

theorem After.ended {p q : Proc α} {a : α} {log more : List Asked} (h : p.After log (.done a))
    (h' : p.After (log ++ more) q) : more = [] ∧ q = .done a := by
  obtain ⟨r, hr, hq⟩ := h'.split
  obtain rfl := h.unique hr
  exact after_done_iff.mp hq

theorem after_ask_done_iff {op : Op} {next : op.Answer → Proc α} {log : List Asked} {a : α} :
    (ask op next).After log (.done a) ↔
      ∃ answer rest, log = ⟨op, answer⟩ :: rest ∧ (next answer).After rest (.done a) := by
  constructor
  · rintro ⟨⟩
    exact ⟨_, _, rfl, ‹_›⟩
  · rintro ⟨answer, rest, rfl, h⟩
    exact .ask h

theorem after_bind_done_iff {p : Proc α} {f : α → Proc β} {log : List Asked} {b : β} :
    (p.bind f).After log (.done b) ↔
      ∃ first a second, log = first ++ second ∧ p.After first (.done a) ∧
        (f a).After second (.done b) := by
  constructor
  · intro h
    induction p generalizing log with
    | done a => exact ⟨[], a, log, rfl, .start _, h⟩
    | ask op next ih =>
      obtain ⟨answer, rest, rfl, hrest⟩ := after_ask_done_iff.mp h
      obtain ⟨first, a, second, rfl, hp, hf⟩ := ih answer hrest
      exact ⟨⟨op, answer⟩ :: first, a, second, rfl, .ask hp, hf⟩
  · rintro ⟨first, a, second, rfl, hp, hf⟩
    generalize hq : Proc.done a = q at hp
    induction hp with
    | start => exact hq ▸ hf
    | ask _ ih => exact .ask (ih hq)

theorem after_bind {p : Proc α} {f : α → Proc β} {log : List Asked} {q : Proc β}
    (h : (p.bind f).After log q) :
    (∃ op next, p.After log (.ask op next) ∧ q = (ask op next).bind f) ∨
      ∃ first a second, log = first ++ second ∧ p.After first (.done a) ∧ (f a).After second q := by
  induction p generalizing log with
  | done a => exact .inr ⟨[], a, log, rfl, .start _, h⟩
  | ask op next ih =>
    rcases h with _ | @⟨_, _, answer, rest, _, hrest⟩
    · exact .inl ⟨op, next, .start _, rfl⟩
    · rcases ih answer hrest with ⟨op', next', hp, rfl⟩ | ⟨first, a, second, rfl, hp, hf⟩
      · exact .inl ⟨op', next', .ask hp, rfl⟩
      · exact .inr ⟨⟨op, answer⟩ :: first, a, second, rfl, .ask hp, hf⟩

/-- What comes of a program if these are all of its questions and their answers. -/
def result? : Proc α → List Asked → Option α
  | done a, [] => some a
  | ask op next, asked :: log =>
    if h : asked.op = op then (next (h ▸ asked.answer)).result? log else none
  | _, _ => none

theorem after_of_result? {p : Proc α} {log : List Asked} {a : α} (h : p.result? log = some a) :
    p.After log (.done a) := by
  induction p generalizing log with
  | done b =>
    cases log with
    | nil =>
      cases h
      exact .start _
    | cons => cases h
  | ask op next ih =>
    cases log with
    | nil => cases h
    | cons asked log =>
      obtain ⟨op', answer⟩ := asked
      unfold result? at h
      split at h
      · rename_i hop
        subst hop
        exact .ask (ih answer h)
      · cases h

/-- At most `count` questions are left, all of a kind. -/
def Within (kind : Op → Prop) : (count : Nat) → Proc α → Prop
  | _, .done _ => True
  | 0, .ask .. => False
  | count + 1, .ask op next => kind op ∧ ∀ answer, (next answer).Within kind count

theorem Within.mono {kind : Op → Prop} {k l : Nat} (hkl : k ≤ l) {p : Proc α}
    (h : p.Within kind k) : p.Within kind l := by
  induction p generalizing k l with
  | done => cases l <;> exact trivial
  | ask op next ih =>
    cases k with
    | zero => exact h.elim
    | succ k =>
      obtain ⟨l, rfl⟩ : ∃ j, l = j + 1 := ⟨l - 1, by omega⟩
      exact ⟨h.1, fun answer => ih answer (by omega) (h.2 answer)⟩

theorem Within.imp {kind kind' : Op → Prop} (hkind : ∀ op, kind op → kind' op) {k : Nat} {p : Proc α}
    (h : p.Within kind k) : p.Within kind' k := by
  induction p generalizing k with
  | done => cases k <;> exact trivial
  | ask op next ih =>
    cases k with
    | zero => exact h.elim
    | succ k => exact ⟨hkind op h.1, fun answer => ih answer (h.2 answer)⟩

theorem Within.bind {kind : Op → Prop} {k l : Nat} {p : Proc α} (hp : p.Within kind k)
    {f : α → Proc β} (hf : ∀ a, (f a).Within kind l) : (p.bind f).Within kind (k + l) := by
  induction p generalizing k with
  | done a => exact (hf a).mono (by omega)
  | ask op next ih =>
    cases k with
    | zero => exact hp.elim
    | succ k =>
      rw [Nat.succ_add]
      exact ⟨hp.1, fun answer => ih answer (hp.2 answer)⟩

theorem Within.asks {kind : Op → Prop} {op : Op} {next : op.Answer → Proc α} {count : Nat}
    (h : (ask op next).Within kind count) : kind op := by
  cases count with
  | zero => exact h.elim
  | succ count => exact h.1

theorem After.within {kind : Op → Prop} {k : Nat} {p q : Proc α} {log : List Asked}
    (h : p.After log q) (hp : p.Within kind k) :
    log.length ≤ k ∧ (∀ a ∈ log, kind a.op) ∧ q.Within kind (k - log.length) := by
  induction h generalizing k with
  | start => exact ⟨Nat.zero_le k, by simp, hp⟩
  | ask _ ih =>
    cases k with
    | zero => exact hp.elim
    | succ k =>
      obtain ⟨hlen, hkind, hq⟩ := ih (hp.2 _)
      refine ⟨Nat.succ_le_succ hlen, ?_, by rwa [List.length_cons, Nat.succ_sub_succ]⟩
      rintro a (_ | ⟨_, ha⟩)
      · exact hp.1
      · exact hkind a ha

def Justified : List Asked → Proc α → Prop
  | _, .done _ => True
  | log, .ask op next => op.Justified log ∧ ∀ answer, (next answer).Justified (⟨op, answer⟩ :: log)

section

variable {rule rule' : List Asked → Op → Prop} {log : List Asked}

/-- Every question obeys a rule that sees what was asked and answered before it, in this order. -/
def Obeys (rule : List Asked → Op → Prop) : List Asked → Proc α → Prop
  | _, .done _ => True
  | log, .ask op next => rule log op ∧ ∀ answer, (next answer).Obeys rule (log ++ [⟨op, answer⟩])

theorem Obeys.imp (himp : ∀ log op, rule log op → rule' log op) {p : Proc α}
    (h : p.Obeys rule log) : p.Obeys rule' log := by
  induction p generalizing log with
  | done => exact trivial
  | ask op next ih => exact ⟨himp log op h.1, fun answer => ih answer (h.2 answer)⟩

theorem Obeys.bind {p : Proc α} (hp : p.Obeys rule log) {f : α → Proc β}
    (hf : ∀ a more, p.After more (.done a) → (f a).Obeys rule (log ++ more)) :
    (p.bind f).Obeys rule log := by
  induction p generalizing log with
  | done a =>
    have h := hf a [] (.start _)
    rwa [List.append_nil] at h
  | ask op next ih =>
    refine ⟨hp.1, fun answer => ih answer (hp.2 answer) fun a more hmore => ?_⟩
    have h := hf a (⟨op, answer⟩ :: more) (.ask hmore)
    rwa [List.append_assoc]

theorem Obeys.justified {p : Proc α} (h : p.Obeys (fun log op => op.Justified log) log)
    {more : List Asked} (hsub : log ⊆ more) : p.Justified more := by
  induction p generalizing log more with
  | done => exact trivial
  | ask op next ih =>
    refine ⟨h.1.mono hsub, fun answer => ih answer (h.2 answer) fun x hx => ?_⟩
    rcases List.mem_append.mp hx with hx | hx
    · exact List.mem_cons_of_mem _ (hsub hx)
    · exact List.mem_singleton.mp hx ▸ List.mem_cons_self

theorem Obeys.after {p q : Proc α} (h : p.Obeys rule log) {more : List Asked} (hq : p.After more q) :
    q.Obeys rule (log ++ more) := by
  induction hq generalizing log with
  | start =>
    rw [List.append_nil]
    exact h
  | ask _ ih =>
    have hlater := ih (h.2 _)
    rwa [List.append_assoc] at hlater

theorem Obeys.asked {p q : Proc α} {past later : List Asked} {asked : Asked} (h : p.Obeys rule log)
    (hq : p.After (past ++ asked :: later) q) : rule (log ++ past) asked.op := by
  obtain ⟨r, hr, hlater⟩ := hq.split
  have hr := h.after hr
  cases hlater
  exact hr.1

theorem Within.obeys {kind : Op → Prop} {count : Nat} {p : Proc α} (h : p.Within kind count)
    (hkind : ∀ log op, kind op → rule log op) : p.Obeys rule log := by
  induction p generalizing count log with
  | done => exact trivial
  | ask op next ih =>
    cases count with
    | zero => exact h.elim
    | succ count => exact ⟨hkind log op h.1, fun answer => ih answer (h.2 answer)⟩

theorem obeys_perform {op : Op} (h : rule log op) : (perform op).Obeys rule log :=
  ⟨h, fun _ => trivial⟩

end

end Proc

namespace Attempt

variable {α β : Type} {log : List Asked}

theorem after_bind_ok {x : Attempt α} {f : α → Attempt β} {b : β}
    (h : (x >>= f).run.After log (.done (.ok b))) :
    ∃ first a second, log = first ++ second ∧ x.run.After first (.done (.ok a)) ∧
      (f a).run.After second (.done (.ok b)) := by
  obtain ⟨first, r, second, rfl, hx, hf⟩ := Proc.after_bind_done_iff.mp h
  cases r with
  | ok a => exact ⟨first, a, second, rfl, hx, hf⟩
  | error cause => cases (Proc.after_done_iff.mp hf).2

theorem after_bind_error {x : Attempt α} {f : α → Attempt β} {cause : RequestError}
    (h : (x >>= f).run.After log (.done (.error cause))) :
    x.run.After log (.done (.error cause)) ∨
      ∃ first a second, log = first ++ second ∧ x.run.After first (.done (.ok a)) ∧
        (f a).run.After second (.done (.error cause)) := by
  obtain ⟨first, r, second, rfl, hx, hf⟩ := Proc.after_bind_done_iff.mp h
  cases r with
  | ok a => exact .inr ⟨first, a, second, rfl, hx, hf⟩
  | error e =>
    obtain ⟨rfl, he⟩ := Proc.after_done_iff.mp hf
    cases he
    rw [List.append_nil]
    exact .inl hx

theorem after_lift {p : Proc α} {a : α}
    (h : (ExceptT.lift p : Attempt α).run.After log (.done (.ok a))) : p.After log (.done a) := by
  obtain ⟨first, r, second, rfl, hp, hr⟩ := Proc.after_bind_done_iff.mp h
  obtain ⟨rfl, hr⟩ := Proc.after_done_iff.mp hr
  cases hr
  rwa [List.append_nil]

theorem after_outcome {x : Attempt α} {r : Except RequestError α}
    (h : x.outcome.run.After log (.done (.ok r))) : x.run.After log (.done r) :=
  after_lift h

variable {rule : List Asked → Op → Prop}

theorem obeys_bind {x : Attempt α} {f : α → Attempt β} (hx : x.run.Obeys rule log)
    (hf : ∀ a more, x.run.After more (.done (.ok a)) → (f a).run.Obeys rule (log ++ more)) :
    (x >>= f).run.Obeys rule log := by
  apply Proc.Obeys.bind hx
  intro r more hmore
  cases r with
  | ok a => exact hf a more hmore
  | error e => exact trivial

theorem obeys_lift {p : Proc α} (hp : p.Obeys rule log) :
    (ExceptT.lift p : Attempt α).run.Obeys rule log :=
  hp.bind fun _ _ _ => trivial

theorem obeys_outcome {x : Attempt α} (hx : x.run.Obeys rule log) : x.outcome.run.Obeys rule log :=
  obeys_lift hx

theorem obeys_ofExcept (r : Except RequestError α) : (ofExcept r).run.Obeys rule log := trivial

end Attempt
end TreeShare
