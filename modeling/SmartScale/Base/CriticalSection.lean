import Mathlib.Logic.Function.Basic
import SmartScale.Base.Schedule
import SmartScale.Base.Transducer

/-!
Parties that share a state guarded by one lock. A party calls with a request, takes the lock or
times out, runs the section of its request statement by statement, and gives the lock back; the
statements of all parties interleave freely. Where there is no lock, a party enters its section at
once.

* `serial_states`: with a lock, in every state of every schedule, the sections finished so far did
  what they do one after another, and at most one more is under way.
* `Reaches.interrupted`: without one, a whole section may run amid another.
* `Completes.rule`: the rule for what a section does, from what each of its statements does.
* `Serial.refines`: sections that each refine one step of a transducer refine its runs, and
  `Serialised.refines` the same of any interleaving.
-/

namespace SmartScale.CriticalSection

open SmartScale.Schedule SmartScale.Transducer

variable {τ σ α κ ρ ι : Type*}

/-- The sections of requests `α`: where each is entered, and what a statement does to the shared
state, with an input of the environment, before the section goes on or ends with a result. -/
structure Sections (σ α κ ρ ι : Type*) where
  enter : α → κ
  step : σ → κ → ι → σ × (κ ⊕ ρ)

/-- Where a party is. -/
inductive Place (α κ ρ : Type*) where
  | outside
  | taking (a : α)
  | inside (a : α) (k : κ)
  | giving (a : α) (r : ρ)

/-- Between taking the lock and giving it back. -/
def Place.holds : Place α κ ρ → Bool
  | .outside | .taking _ => false
  | .inside _ _ | .giving _ _ => true

/-- A call that has returned, without a result where it timed out. -/
structure Return (τ α ρ : Type*) where
  party : τ
  request : α
  result : Option ρ

/-- The shared state, whether there is a lock and whether it is free, where the parties are, and the
calls that have returned, in order. -/
structure State (τ σ α κ ρ : Type*) where
  shared : σ
  hasLock : Bool
  free : Bool
  place : τ → Place α κ ρ
  returns : List (Return τ α ρ)

/-- Nobody has called. -/
def State.startWith (hasLock : Bool) (s : σ) : State τ σ α κ ρ :=
  ⟨s, hasLock, true, fun _ => .outside, []⟩

/-- Nobody has called, and there is a lock. -/
def State.start (s : σ) : State τ σ α κ ρ := .startWith true s

/-- The requests that were served, with their results, in order. -/
def State.finished (s : State τ σ α κ ρ) : List (α × ρ) :=
  s.returns.filterMap fun call => call.result.map fun r => (call.request, r)

/-- What calls hand back, `r₀` where they time out. -/
theorem State.forall_returns {P : ρ → Prop} {s : State τ σ α κ ρ} {r₀ : ρ} (timed_out : P r₀)
    (finished : ∀ r ∈ s.finished.map Prod.snd, P r) : ∀ c ∈ s.returns, P (c.result.getD r₀) := by
  intro c mem
  cases result : c.result with
  | none => exact timed_out
  | some r =>
      have served : (c.request, r) ∈ s.finished :=
        List.mem_filterMap.mpr ⟨c, mem, by rw [result]; rfl⟩
      exact finished r (List.mem_map_of_mem served)

/-- What was served was returned. -/
theorem State.exists_return {s : State τ σ α κ ρ} {a : α} {r : ρ} (served : (a, r) ∈ s.finished) :
    ∃ c ∈ s.returns, c.result = some r := by
  obtain ⟨c, mem, result⟩ := List.mem_filterMap.mp served
  obtain ⟨r', result', pair⟩ := Option.map_eq_some_iff.mp result
  obtain ⟨-, rfl⟩ := Prod.mk.inj pair
  exact ⟨c, mem, result'⟩

/-- What happens next. -/
inductive Action (τ α ι : Type*) where
  | call (p : τ) (a : α)
  | take (p : τ)
  | timeOut (p : τ)
  | go (p : τ) (x : ι)
  | give (p : τ)

/-- One action. The lock is looked at where it is taken, and nowhere else; nobody waits for a lock
that is not there. -/
def step [DecidableEq τ] (S : Sections σ α κ ρ ι) (s : State τ σ α κ ρ) :
    Action τ α ι → Option (State τ σ α κ ρ)
  | .call p a =>
      match s.place p with
      | .outside => some { s with place := Function.update s.place p (.taking a) }
      | _ => none
  | .take p =>
      match s.place p, s.hasLock, s.free with
      | .taking a, true, true =>
          some { s with
            free := false
            place := Function.update s.place p (.inside a (S.enter a)) }
      | .taking a, false, _ =>
          some { s with place := Function.update s.place p (.inside a (S.enter a)) }
      | _, _, _ => none
  | .timeOut p =>
      match s.place p, s.hasLock with
      | .taking a, true =>
          some { s with
            place := Function.update s.place p .outside
            returns := s.returns ++ [⟨p, a, none⟩] }
      | _, _ => none
  | .go p x =>
      match s.place p with
      | .inside a k =>
          match S.step s.shared k x with
          | (t, .inl l) =>
              some { s with shared := t, place := Function.update s.place p (.inside a l) }
          | (t, .inr r) =>
              some { s with shared := t, place := Function.update s.place p (.giving a r) }
      | _ => none
  | .give p =>
      match s.place p with
      | .giving a r =>
          some { s with
            free := true
            place := Function.update s.place p .outside
            returns := s.returns ++ [⟨p, a, some r⟩] }
      | _ => none

/-! ### Sections on their own -/

/-- A section gets from one place to another, undisturbed. -/
inductive Reaches (S : Sections σ α κ ρ ι) (s : σ) (k : κ) : σ → κ → Prop where
  | here : Reaches S s k s k
  | next {t u : σ} {l m : κ} (x : ι) : Reaches S s k t l → S.step t l x = (u, .inl m) →
      Reaches S s k u m

/-- A section runs to its end, undisturbed. -/
def Completes (S : Sections σ α κ ρ ι) (s : σ) (k : κ) (t : σ) (r : ρ) : Prop :=
  ∃ u l x, Reaches S s k u l ∧ S.step u l x = (t, .inr r)

/-- Sections one after another, with their requests and results. -/
inductive Serial (S : Sections σ α κ ρ ι) (s : σ) : List (α × ρ) → σ → Prop where
  | none : Serial S s [] s
  | one_more {log : List (α × ρ)} {t u : σ} {a : α} {r : ρ} : Serial S s log t →
      Completes S t (S.enter a) u r → Serial S s (log ++ [(a, r)]) u

section Rules

variable {S : Sections σ α κ ρ ι} {s t : σ} {k l : κ} {r : ρ} {log : List (α × ρ)}

theorem Reaches.rule {P : σ → κ → Prop} (reaches : Reaches S s k t l) (enter : P s k)
    (keeps : ∀ t l x u m, P t l → S.step t l x = (u, .inl m) → P u m) : P t l := by
  induction reaches with
  | here => exact enter
  | next x _ stepped ih => exact keeps _ _ x _ _ ih stepped

/-- **What a section does**: a property of its places that every statement keeps, and that gives
`Q` where the section ends. -/
theorem Completes.rule {P : σ → κ → Prop} {Q : σ → ρ → Prop} (completes : Completes S s k t r)
    (enter : P s k)
    (keeps : ∀ t l x, P t l →
      Sum.elim (P (S.step t l x).1) (Q (S.step t l x).1) (S.step t l x).2) : Q t r := by
  obtain ⟨u, l, x, reaches, ends⟩ := completes
  have there : P u l := by
    refine reaches.rule enter ?_
    intro t l x v m holds stepped
    have next := keeps t l x holds
    rwa [stepped] at next
  have last := keeps u l x there
  rwa [ends] at last

/-- **Refinement.** If each section takes related states to related states as one step of a
transducer does, with a matching result, so do sections one after another. -/
theorem Serial.refines {υ ο : Type*} {spec : υ → α → υ × ο} {R : σ → υ → Prop} {M : ρ → ο → Prop}
    {v : υ} (serial : Serial S s log t) (start : R s v)
    (sim : ∀ s v a t r, R s v → Completes S s (S.enter a) t r →
      R t (spec v a).1 ∧ M r (spec v a).2) :
    R t (after spec v (log.map Prod.fst)) ∧
      List.Forall₂ M (log.map Prod.snd) (outputs spec v (log.map Prod.fst)) := by
  induction serial with
  | none => exact ⟨start, .nil⟩
  | one_more _ completes ih =>
      obtain ⟨related, matched⟩ := ih
      obtain ⟨next, result⟩ := sim _ _ _ _ _ related completes
      rw [List.map_append, List.map_append, after_append, outputs_append]
      exact ⟨next, List.rel_append matched (.cons result .nil)⟩

end Rules

/-! ### Any interleaving -/

/-- How far a party that holds the lock has come from the state the last section left. -/
def UnderWay (S : Sections σ α κ ρ ι) (left now : σ) : Place α κ ρ → Prop
  | .inside a k => Reaches S left (S.enter a) now k
  | .giving a r => Completes S left (S.enter a) now r
  | .outside | .taking _ => False

/-- Either nobody holds the lock, or one party does, and its section is under way. -/
inductive Holder (S : Sections σ α κ ρ ι) (left : σ) (s : State τ σ α κ ρ) : Prop where
  | nobody : s.free = true → s.shared = left → (∀ q, (s.place q).holds = false) → Holder S left s
  | party (p : τ) : s.free = false → UnderWay S left s.shared (s.place p) →
      (∀ q, q ≠ p → (s.place q).holds = false) → Holder S left s

/-- The finished sections ran one after another, and one more at most is under way. -/
def Serialised (S : Sections σ α κ ρ ι) (s₀ : σ) (s : State τ σ α κ ρ) : Prop :=
  ∃ left, Serial S s₀ s.finished left ∧ Holder S left s

/-- What the finished sections did refines a run of a transducer, and so does the shared state they
left, where nobody holds the lock. -/
structure Refined {υ ο : Type*} (spec : υ → α → υ × ο) (R : σ → υ → Prop) (M : ρ → ο → Prop)
    (v : υ) (s : State τ σ α κ ρ) : Prop where
  results : List.Forall₂ M (s.finished.map Prod.snd) (outputs spec v (s.finished.map Prod.fst))
  free : s.free = true → R s.shared (after spec v (s.finished.map Prod.fst))

section Interleaving

variable {S : Sections σ α κ ρ ι} {s₀ left : σ} {s t : State τ σ α κ ρ} {p q : τ}
  {new : Place α κ ρ}

theorem start_serialised : Serialised S s₀ (State.start s₀ : State τ σ α κ ρ) :=
  ⟨s₀, .none, .nobody rfl rfl fun _ => rfl⟩

theorem Serialised.refines {υ ο : Type*} {spec : υ → α → υ × ο} {R : σ → υ → Prop}
    {M : ρ → ο → Prop} {v : υ} (serialised : Serialised S s₀ s) (start : R s₀ v)
    (sim : ∀ s v a t r, R s v → Completes S s (S.enter a) t r →
      R t (spec v a).1 ∧ M r (spec v a).2) :
    Refined spec R M v s := by
  obtain ⟨left, serial, holder⟩ := serialised
  obtain ⟨related, matched⟩ := serial.refines start sim
  refine ⟨matched, ?_⟩
  intro free
  cases holder with
  | nobody _ same _ => rwa [same]
  | party _ taken => exact absurd (free.symm.trans taken) Bool.noConfusion

/-- The party that holds the lock is the only one. -/
theorem Holder.of_holds (holder : Holder S left s) (holds : (s.place p).holds = true) :
    s.free = false ∧ UnderWay S left s.shared (s.place p) ∧
      ∀ q, q ≠ p → (s.place q).holds = false := by
  cases holder with
  | nobody _ _ none =>
      rw [none p] at holds
      cases holds
  | party q taken under others =>
      obtain rfl : p = q := by
        by_contra other
        rw [others p other] at holds
        cases holds
      exact ⟨taken, under, others⟩

variable [DecidableEq τ]

/-- While one party holds the lock, it may go on. -/
theorem Holder.go {u : σ} (holder : Holder S left s) (holds : (s.place p).holds = true)
    (under : UnderWay S left u new) :
    Holder S left { s with shared := u, place := Function.update s.place p new } := by
  obtain ⟨taken, _, others⟩ := holder.of_holds holds
  refine .party p taken ?_ ?_
  · show UnderWay S left u (Function.update s.place p new p)
    rwa [Function.update_self]
  · intro q other
    show (Function.update s.place p new q).holds = false
    rw [Function.update_of_ne other]
    exact others q other

/-- A party that moves without the lock leaves the holder alone. -/
theorem Holder.move {returns : List (Return τ α ρ)} (holder : Holder S left s)
    (was_out : (s.place p).holds = false) (new_out : new.holds = false) :
    Holder S left { s with place := Function.update s.place p new, returns := returns } := by
  have out (q : τ) (before : (s.place q).holds = false) :
      (Function.update s.place p new q).holds = false := by
    rcases eq_or_ne q p with rfl | other
    · rwa [Function.update_self]
    · rwa [Function.update_of_ne other]
  cases holder with
  | nobody free same none => exact .nobody free same fun q => out q (none q)
  | party p' taken under others =>
      have other : p' ≠ p := by
        rintro rfl
        cases here : s.place p' with
        | outside | taking =>
            rw [here] at under
            exact under
        | inside | giving =>
            rw [here] at was_out
            cases was_out
      refine .party p' taken ?_ fun q ne => out q (others q ne)
      show UnderWay S left s.shared (Function.update s.place p new p')
      rwa [Function.update_of_ne other]

/-- A party that takes the lock is at the start of its section. -/
theorem Holder.take {a : α} (holder : Holder S left s) (free : s.free = true) :
    Holder S left
      { s with free := false, place := Function.update s.place p (.inside a (S.enter a)) } := by
  cases holder with
  | nobody _ same none =>
      refine .party p rfl ?_ ?_
      · show UnderWay S left s.shared (Function.update s.place p (.inside a (S.enter a)) p)
        rw [Function.update_self, same]
        exact .here
      · intro q other
        show (Function.update s.place p (.inside a (S.enter a)) q).holds = false
        rw [Function.update_of_ne other]
        exact none q
  | party _ taken => exact absurd (free.symm.trans taken) Bool.noConfusion

/-- A party that gives the lock back leaves nobody with it. -/
theorem Holder.give {returns : List (Return τ α ρ)} (holder : Holder S left s)
    (holds : (s.place p).holds = true) :
    Holder S s.shared
      { s with free := true, place := Function.update s.place p .outside, returns := returns } := by
  obtain ⟨_, _, others⟩ := holder.of_holds holds
  refine .nobody rfl rfl ?_
  intro q
  show (Function.update s.place p .outside q).holds = false
  rcases eq_or_ne q p with rfl | other
  · rw [Function.update_self]
    rfl
  · rw [Function.update_of_ne other]
    exact others q other

/-- No step makes a lock or takes it away. -/
theorem step_hasLock {ι : Type*} {S : Sections σ α κ ρ ι} {b : Action τ α ι}
    (enabled : step S s b = some t) : t.hasLock = s.hasLock := by
  cases b <;> simp only [step] at enabled <;> split at enabled <;> try split at enabled
  all_goals cases enabled <;> rfl

/-- **Step lemma.** -/
theorem step_serialised {ι : Type*} {S : Sections σ α κ ρ ι} (b : Action τ α ι)
    (lock : s.hasLock = true) (inv : Serialised S s₀ s) (enabled : step S s b = some t) :
    Serialised S s₀ t := by
  obtain ⟨left, serial, holder⟩ := inv
  cases b with
  | call p a =>
      simp only [step] at enabled
      split at enabled
      · rename_i out
        obtain rfl := Option.some.inj enabled
        exact ⟨left, serial, holder.move (by rw [out]; rfl) rfl⟩
      · cases enabled
  | take p =>
      simp only [step] at enabled
      split at enabled
      · rename_i free
        obtain rfl := Option.some.inj enabled
        exact ⟨left, serial, holder.take free⟩
      · rename_i none
        exact absurd (lock.symm.trans none) Bool.noConfusion
      · cases enabled
  | timeOut p =>
      simp only [step] at enabled
      split at enabled
      · rename_i taking _
        obtain rfl := Option.some.inj enabled
        refine ⟨left, ?_, holder.move (by rw [taking]; rfl) rfl⟩
        simpa [State.finished] using serial
      · cases enabled
  | go p x =>
      simp only [step] at enabled
      split at enabled
      · rename_i a k here
        have holds : (s.place p).holds = true := by
          rw [here]
          rfl
        have reaches : Reaches S left (S.enter a) s.shared k := by
          have under := (holder.of_holds holds).2.1
          rwa [here] at under
        split at enabled
        · rename_i stepped
          obtain rfl := Option.some.inj enabled
          exact ⟨left, serial, holder.go holds (reaches.next x stepped)⟩
        · rename_i stepped
          obtain rfl := Option.some.inj enabled
          exact ⟨left, serial, holder.go holds ⟨_, _, x, reaches, stepped⟩⟩
      · cases enabled
  | give p =>
      simp only [step] at enabled
      split at enabled
      · rename_i a r here
        obtain rfl := Option.some.inj enabled
        have holds : (s.place p).holds = true := by
          rw [here]
          rfl
        have completes : Completes S left (S.enter a) s.shared r := by
          have under := (holder.of_holds holds).2.1
          rwa [here] at under
        refine ⟨s.shared, ?_, holder.give holds⟩
        simpa [State.finished] using serial.one_more completes
      · cases enabled

/-- **Critical sections are atomic**, in every state of every schedule. -/
theorem serial_states {ι : Type*} (S : Sections σ α κ ρ ι) (s₀ : σ)
    (actions : List (Action τ α ι)) :
    AllStates (step S) (Serialised S s₀) (State.start s₀) actions := by
  have kept (s : State τ σ α κ ρ) (b : Action τ α ι) (t : State τ σ α κ ρ)
      (inv : s.hasLock = true ∧ Serialised S s₀ s) (enabled : step S s b = some t) :
      t.hasLock = true ∧ Serialised S s₀ t :=
    ⟨(step_hasLock enabled).trans inv.1, step_serialised b inv.1 inv.2 enabled⟩
  exact (allStates_of_invariant kept ⟨rfl, start_serialised⟩ actions).mono fun _ inv => inv.2

end Interleaving

/-! ### Without a lock -/

section NoLock

variable {S : Sections σ α κ ρ ι} {s t u : σ} {k l m : κ} {a b : α} {r : ρ} {p q : τ}
  {w : State τ σ α κ ρ}

theorem Reaches.of_step {x : ι} (stepped : S.step s k x = (t, .inl l))
    (reaches : Reaches S t l u m) : Reaches S s k u m := by
  induction reaches with
  | here => exact .next x .here stepped
  | next y _ on ih => exact .next y ih on

theorem Completes.of_step {x : ι} (stepped : S.step s k x = (t, .inl l))
    (completes : Completes S t l u r) : Completes S s k u r := by
  obtain ⟨v, m, y, reaches, ends⟩ := completes
  exact ⟨v, m, y, reaches.of_step stepped, ends⟩

variable [DecidableEq τ]

/-- A party goes on in its section, while the others wait. -/
theorem Reaches.goes (here : w.place p = .inside a k) (reaches : Reaches S w.shared k t l) :
    Leads (step S) w
      { w with shared := t, place := Function.update w.place p (.inside a l) } := by
  induction reaches with
  | here =>
      rw [← here, Function.update_eq_self]
      exact .refl
  | next x _ stepped ih =>
      refine ih.trans (.of_step (a := .go p x) ?_)
      simp [step, stepped]

/-- A party ends its section, while the others wait, and returns. -/
theorem Completes.goes (here : w.place p = .inside a k) (completes : Completes S w.shared k t r) :
    Leads (step S) w
      { w with
        shared := t
        free := true
        place := Function.update w.place p .outside
        returns := w.returns ++ [⟨p, a, some r⟩] } := by
  obtain ⟨u, l, x, reaches, ends⟩ := completes
  have ended : step S { w with shared := u, place := Function.update w.place p (.inside a l) }
      (.go p x) =
        some { w with shared := t, place := Function.update w.place p (.giving a r) } := by
    simp [step, ends]
  refine (reaches.goes here).trans ((Leads.of_step ended).trans (.of_step (a := .give p) ?_))
  simp [step]

/-- A party calls, and is in its section at once. -/
theorem leads_enter (none : w.hasLock = false) (out : w.place p = .outside) :
    Leads (step S) w { w with place := Function.update w.place p (.inside a (S.enter a)) } := by
  have called : step S w (.call p a) =
      some { w with place := Function.update w.place p (.taking a) } := by
    simp [step, out]
  refine (Leads.of_step called).trans (.of_step (a := .take p) ?_)
  simp [step, none]

/-- **Without a lock**, a whole section may run amid another, which then goes on as if nothing had
happened. -/
theorem Reaches.interrupted (other : q ≠ p) {v : σ} {r' : ρ}
    (reaches : Reaches S s (S.enter a) t k) (between : Completes S t (S.enter b) u r)
    (rest : Completes S u k v r') :
    ∃ w : State τ σ α κ ρ, Leads (step S) (.startWith false s) w ∧
      w.free = true ∧ w.shared = v ∧ w.finished = [(b, r), (a, r')] := by
  have entered : Leads (step S) (State.startWith false s : State τ σ α κ ρ) _ :=
    leads_enter (p := p) (a := a) rfl rfl
  have amid := entered.trans (reaches.goes (Function.update_self ..))
  have inner := amid.trans (leads_enter (p := q) (a := b) rfl (by simp [State.startWith, other]))
  have back := inner.trans (between.goes (Function.update_self ..))
  refine ⟨_, back.trans (rest.goes (p := p) (a := a) ?_), rfl, rfl, rfl⟩
  simp [other.symm]

end NoLock

end SmartScale.CriticalSection
