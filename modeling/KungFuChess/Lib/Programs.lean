import Mathlib.Data.List.Basic

/-!
# Programs in a world that moves

A program is a tree: it asks for an operation and goes on with the answer. Between any two operations
the world may move by itself, and which events happen there is the script of the run. So one program
stands for all its interleavings with the world: a statement about every script is a statement about
every order in which things can happen.

The history of a run lists the events and the operations, each with the state that it met. `Leads` is
the same thing without a program: any sequence of events and operations. What one event and one
operation preserve is preserved by every program.

`wp` is for what only some programs do. It takes a condition that the history may be assumed to satisfy,
and besides a postcondition it asks for a guarantee on every operation, in the state that it meets.
-/

/-- What a program can do, what can happen to it, and the state both act on. -/
structure Machine where
  State : Type
  Event : Type
  Op : Type
  Fault : Type
  Result : Op → Type
  occur : Event → State → State
  apply : (op : Op) → State → Except Fault (Result op × State)

namespace Machine

variable {M : Machine} {α β : Type}

/-! ### Programs -/

inductive Prog (M : Machine) (α : Type) : Type where
  | done (a : α)
  -- the program reads the state
  | look (next : M.State → Prog M α)
  | step (op : M.Op) (next : M.Result op → Prog M α)

namespace Prog

def bind : Prog M α → (α → Prog M β) → Prog M β
  | .done a, f => f a
  | .look next, f => .look fun s => (next s).bind f
  | .step op next, f => .step op fun r => (next r).bind f

instance : Monad (Prog M) where
  pure := .done
  bind := .bind

/-- Ask for one operation. -/
def perform (op : M.Op) : Prog M (M.Result op) := .step op .done

/-- Read a part of the state. -/
def read (f : M.State → α) : Prog M α := .look fun s => .done (f s)

end Prog

/-! ### Runs -/

structure World (M : Machine) where
  state : M.State
  -- what happens before each of the next operations
  script : List (List M.Event) := []
  history : List (M.State × (M.Event ⊕ M.Op)) := []

namespace World

def after (w : World M) (e : M.Event) : World M :=
  { w with state := M.occur e w.state, history := w.history ++ [(w.state, .inl e)] }

/-- The next entry of the script happens. -/
def wait (w : World M) : World M :=
  match w.script with
  | [] => w
  | events :: script => events.foldl after { w with script }

def perform (w : World M) (op : M.Op) : Except M.Fault (M.Result op × World M) := do
  let (r, s) ← M.apply op w.state
  return (r, { w with state := s, history := w.history ++ [(w.state, .inr op)] })

theorem prefix_foldl_after (events : List M.Event) (w : World M) :
    w.history <+: (events.foldl after w).history := by
  induction events generalizing w with
  | nil => exact List.prefix_rfl
  | cons e events ih => exact (List.prefix_append _ _).trans (ih (w.after e))

theorem perform_eq_ok {w w' : World M} {op : M.Op} {r : M.Result op} :
    w.perform op = .ok (r, w') ↔ ∃ s, M.apply op w.state = .ok (r, s) ∧
      { w with state := s, history := w.history ++ [(w.state, .inr op)] } = w' := by
  unfold perform
  cases M.apply op w.state with
  | error e => simp [bind, Except.bind]
  | ok answer =>
      obtain ⟨answered, s⟩ := answer
      simp [bind, Except.bind, pure, Except.pure]

end World

def Prog.run : Prog M α → World M → Except M.Fault (α × World M)
  | .done a, w => .ok (a, w)
  | .look next, w => (next w.state).run w
  | .step op next, w => do
      let (r, w) ← w.wait.perform op
      (next r).run w

namespace Prog

theorem run_step (op : M.Op) (next : M.Result op → Prog M α) (w : World M) :
    (step op next).run w = w.wait.perform op >>= fun answer => (next answer.1).run answer.2 := rfl

end Prog

/-! ### Sequences of events and operations -/

/-- Any sequence of events and operations leads from one world to another. -/
inductive Leads : World M → World M → Prop where
  | refl (w) : Leads w w
  | script {w w'} (rest : List (List M.Event)) : Leads w w' → Leads w { w' with script := rest }
  | event {w w'} (e : M.Event) : Leads w w' → Leads w (w'.after e)
  | op {w w' w''} {op : M.Op} {r : M.Result op} :
      Leads w w' → w'.perform op = .ok (r, w'') → Leads w w''

namespace Leads

variable {w w' w'' : World M}

theorem trans (h : Leads w w') (h' : Leads w' w'') : Leads w w'' := by
  induction h' with
  | refl => exact h
  | script rest _ ih => exact .script rest ih
  | event e _ ih => exact .event e ih
  | op _ hop ih => exact .op ih hop

theorem wait (w : World M) : Leads w w.wait := by
  have hevents : ∀ (events : List M.Event) (w' : World M), Leads w w' → Leads w (events.foldl World.after w') := by
    intro events
    induction events with
    | nil => exact fun w' h => h
    | cons e events ih => exact fun w' h => ih _ (.event e h)
  unfold World.wait
  split
  · exact .refl w
  · exact hevents _ _ (.script _ (.refl w))

/-- Every program is a sequence of events and operations. -/
theorem of_run {p : Prog M α} {a : α} (h : p.run w = .ok (a, w')) : Leads w w' := by
  induction p generalizing w with
  | done a =>
      cases h
      exact .refl _
  | look next ih => exact ih _ h
  | step op next ih =>
      rw [Prog.run_step] at h
      cases hop : w.wait.perform op with
      | error e =>
          rw [hop] at h
          cases h
      | ok answer =>
          rw [hop] at h
          exact ((wait w).op hop).trans (ih answer.1 h)

theorem prefix_history (h : Leads w w') : w.history <+: w'.history := by
  induction h with
  | refl => exact List.prefix_rfl
  | script rest _ ih => exact ih
  | event e _ ih => exact ih.trans (List.prefix_append _ _)
  | op _ hop ih =>
      obtain ⟨s, -, rfl⟩ := World.perform_eq_ok.mp hop
      exact ih.trans (List.prefix_append _ _)

/-- What every event and every operation preserves holds wherever they lead. They may be met under a
condition on the state before, and then it is the history that has to satisfy it. -/
theorem invariant {P : M.State → List (M.State × (M.Event ⊕ M.Op)) → Prop} {C : M.State → M.Event ⊕ M.Op → Prop}
    (hevent : ∀ s history e, P s history → C s (.inl e) → P (M.occur e s) (history ++ [(s, .inl e)]))
    (hop : ∀ s history op r s', P s history → C s (.inr op) → M.apply op s = .ok (r, s') →
      P s' (history ++ [(s, .inr op)]))
    (h : Leads w w') (hstart : P w.state w.history) (hcond : ∀ x ∈ w'.history, C x.1 x.2) :
    P w'.state w'.history := by
  induction h with
  | refl => exact hstart
  | script rest _ ih => exact ih hcond
  | event e _ ih =>
      obtain ⟨hbefore, hlast⟩ := List.forall_mem_append.mp hcond
      exact hevent _ _ e (ih hbefore) (hlast _ List.mem_cons_self)
  | op _ hperform ih =>
      obtain ⟨s, happly, rfl⟩ := World.perform_eq_ok.mp hperform
      obtain ⟨hbefore, hlast⟩ := List.forall_mem_append.mp hcond
      exact hop _ _ _ _ s (ih hbefore) (hlast _ List.mem_cons_self) happly

/-- And so it holds of every step of the history, in the state that the step met. -/
theorem throughout {P : M.State → List (M.State × (M.Event ⊕ M.Op)) → Prop} {C : M.State → M.Event ⊕ M.Op → Prop}
    (hevent : ∀ s history e, P s history → C s (.inl e) → P (M.occur e s) (history ++ [(s, .inl e)]))
    (hop : ∀ s history op r s', P s history → C s (.inr op) → M.apply op s = .ok (r, s') →
      P s' (history ++ [(s, .inr op)]))
    (h : Leads w w') (hstart : P w.state w.history) (hcond : ∀ x ∈ w'.history, C x.1 x.2) :
    ∀ before x, w.history <+: before → before ++ [x] <+: w'.history → P x.1 before := by
  have hlast : ∀ s history x, (P s history ∧ ∀ before x, w.history <+: before → before ++ [x] <+: history → P x.1 before) →
      x.1 = s → ∀ before y, w.history <+: before → before ++ [y] <+: history ++ [x] → P y.1 before := by
    intro s history x h hx before y hold hpre
    rcases List.prefix_concat_iff.mp hpre with heq | hpre
    · obtain ⟨rfl, hyx⟩ := List.append_inj' heq rfl
      obtain rfl := List.singleton_inj.mp hyx
      rw [hx]
      exact h.1
    · exact h.2 before y hold hpre
  refine (invariant (P := fun s history =>
    P s history ∧ ∀ before x, w.history <+: before → before ++ [x] <+: history → P x.1 before) ?_ ?_ h
    ⟨hstart, fun before x hold hpre => ?_⟩ hcond).2
  · exact fun s history e h hc => ⟨hevent s history e h.1 hc, hlast s history _ h rfl⟩
  · exact fun s history op r s' h hc happly => ⟨hop s history op r s' h.1 hc happly, hlast s history _ h rfl⟩
  · have hshort := hold.length_le
    have hlong := hpre.length_le
    rw [List.length_append, List.length_singleton] at hlong
    omega

end Leads

/-- Where the script is over, nothing happens but what the program does. -/
theorem Prog.run_quiet {p : Prog M α} {w w' : World M} {a : α} (hscript : w.script = []) (h : p.run w = .ok (a, w')) :
    w'.script = [] ∧ ∀ x ∈ w'.history, x ∈ w.history ∨ x.2.isRight = true := by
  induction p generalizing w with
  | done a =>
      cases h
      exact ⟨hscript, fun x hx => .inl hx⟩
  | look next ih => exact ih _ hscript h
  | step op next ih =>
      have hwait : w.wait = w := by
        unfold World.wait
        rw [hscript]
      rw [run_step, hwait] at h
      cases hop : w.perform op with
      | error e =>
          rw [hop] at h
          cases h
      | ok answer =>
          obtain ⟨r, v⟩ := answer
          rw [hop] at h
          obtain ⟨s, -, rfl⟩ := World.perform_eq_ok.mp hop
          obtain ⟨hscript', hhistory⟩ :=
            ih r (w := { w with state := s, history := w.history ++ [(w.state, .inr op)] }) hscript h
          refine ⟨hscript', fun x hx => ?_⟩
          rcases hhistory x hx with hx | hx
          · rcases List.mem_append.mp hx with hx | hx
            · exact .inl hx
            · rw [List.mem_singleton.mp hx]
              exact .inr rfl
          · exact .inr hx

/-! ### Weakest preconditions -/

section Rules

variable (C D : M.State → M.Event ⊕ M.Op → Prop)

/-- Events that satisfy the condition lead from one state to another. -/
inductive Drift : M.State → M.State → Prop where
  | refl (s) : Drift s s
  | event {s s'} (e : M.Event) : Drift s s' → C s' (.inl e) → Drift s (M.occur e s')

/-- From a state that satisfies this, and as long as the condition `C` is met, every operation is asked for
where the guarantee `D` holds of it, and the program ends with `Q`. -/
def Prog.wp : Prog M α → (α → M.State → Prop) → M.State → Prop
  | .done a, Q, s => Q a s
  | .look next, Q, s => (next s).wp Q s
  | .step op next, Q, s => ∀ s', Drift C s s' → D s' (.inr op) ∧
      ∀ r s'', C s' (.inr op) → M.apply op s' = .ok (r, s'') → (next r).wp Q s''

variable {C D} {Q Q' : α → M.State → Prop} {s : M.State}

namespace Prog

theorem wp_mono {p : Prog M α} (h : p.wp C D Q s) (hpost : ∀ a s', Q a s' → Q' a s') : p.wp C D Q' s := by
  induction p generalizing s with
  | done a => exact hpost a s h
  | look next ih => exact ih s h
  | step op next ih =>
      intro s' hdrift
      obtain ⟨hguarantee, hnext⟩ := h s' hdrift
      exact ⟨hguarantee, fun r s'' hcond happly => ih r (hnext r s'' hcond happly)⟩

theorem wp_bind {p : Prog M α} {f : α → Prog M β} {R : β → M.State → Prop}
    (h : p.wp C D (fun a s' => (f a).wp C D R s') s) : (p >>= f).wp C D R s := by
  change (p.bind f).wp C D R s
  induction p generalizing s with
  | done a => exact h
  | look next ih => exact ih s h
  | step op next ih =>
      intro s' hdrift
      obtain ⟨hguarantee, hnext⟩ := h s' hdrift
      exact ⟨hguarantee, fun r s'' hcond happly => ih r (hnext r s'' hcond happly)⟩

/-- One operation, from a property that the events keep. -/
theorem wp_perform {P : M.State → Prop} {op : M.Op} {Q : M.Result op → M.State → Prop}
    (hevent : ∀ s e, P s → C s (.inl e) → P (M.occur e s))
    (hop : ∀ s, P s → D s (.inr op) ∧ ∀ r s', C s (.inr op) → M.apply op s = .ok (r, s') → Q r s')
    (h : P s) : (perform op).wp C D Q s := by
  intro s' hdrift
  have hs' : P s' := by
    induction hdrift with
    | refl => exact h
    | event e _ hcond ih => exact hevent _ e ih hcond
  exact hop s' hs'

/-- A loop over a list, with an invariant that knows what is left of it. -/
theorem wp_forM {I : List β → M.State → Prop} {f : β → Prog M PUnit} {bs : List β}
    (hbody : ∀ b rest s, I (b :: rest) s → (f b).wp C D (fun _ s' => I rest s') s) (h : I bs s) :
    (bs.forM f).wp C D (fun _ s' => I [] s') s := by
  induction bs generalizing s with
  | nil => exact h
  | cons b rest ih => exact wp_bind (wp_mono (hbody b rest s h) fun _ s' hs' => ih hs')

end Prog

theorem World.wait_drift {w : World M} (hcond : ∀ x ∈ w.wait.history, C x.1 x.2) :
    Drift C w.state w.wait.state ∧ ∀ x ∈ w.wait.history, x ∈ w.history ∨ ∃ e, x.2 = .inl e := by
  have hevents : ∀ (events : List M.Event) (w' : World M),
      (∀ x ∈ (events.foldl after w').history, C x.1 x.2) → Drift C w.state w'.state →
      (∀ x ∈ w'.history, x ∈ w.history ∨ ∃ e, x.2 = .inl e) →
      Drift C w.state (events.foldl after w').state ∧
        ∀ x ∈ (events.foldl after w').history, x ∈ w.history ∨ ∃ e, x.2 = .inl e := by
    intro events
    induction events with
    | nil => exact fun w' _ hdrift hold => ⟨hdrift, hold⟩
    | cons e events ih =>
        intro w' hcond hdrift hold
        refine ih (w'.after e) hcond (.event e hdrift ?_) ?_
        · have hmem : (w'.state, .inl e) ∈ (w'.after e).history := List.mem_append_right _ List.mem_cons_self
          exact hcond _ ((prefix_foldl_after events _).subset hmem)
        · intro x hx
          rcases List.mem_append.mp hx with hx | hx
          · exact hold x hx
          · rw [List.mem_singleton.mp hx]
            exact .inr ⟨e, rfl⟩
  unfold wait at hcond ⊢
  split at hcond
  · exact ⟨.refl _, fun x hx => .inl hx⟩
  · exact hevents _ _ hcond (.refl _) fun x hx => .inl hx

/-- A run of a program does what its weakest precondition says. -/
theorem Prog.run_of_wp {p : Prog M α} {w w' : World M} {a : α} (h : p.wp C D Q w.state)
    (hrun : p.run w = .ok (a, w')) (hcond : ∀ x ∈ w'.history, C x.1 x.2) :
    Q a w'.state ∧ ∀ x ∈ w'.history, x ∈ w.history ∨ (∃ e, x.2 = .inl e) ∨ D x.1 x.2 := by
  induction p generalizing w with
  | done a =>
      cases hrun
      exact ⟨h, fun x hx => .inl hx⟩
  | look next ih => exact ih w.state h hrun
  | step op next ih =>
      rw [run_step] at hrun
      cases hop : w.wait.perform op with
      | error e =>
          rw [hop] at hrun
          cases hrun
      | ok answer =>
          obtain ⟨r, v⟩ := answer
          rw [hop] at hrun
          obtain ⟨s, happly, rfl⟩ := World.perform_eq_ok.mp hop
          have hmore := (Leads.of_run hrun).prefix_history.subset
          have hwaited : ∀ x ∈ w.wait.history, C x.1 x.2 := fun x hx =>
            hcond x (hmore (List.mem_append_left _ hx))
          obtain ⟨hdrift, hevents⟩ := World.wait_drift hwaited
          obtain ⟨hguarantee, hnext⟩ := h w.wait.state hdrift
          have hmet := hcond (w.wait.state, .inr op) (hmore (List.mem_append_right _ List.mem_cons_self))
          obtain ⟨hpost, hhistory⟩ := ih r (hnext r s hmet happly) hrun
          refine ⟨hpost, fun x hx => ?_⟩
          rcases hhistory x hx with hx | hx
          · rcases List.mem_append.mp hx with hx | hx
            · exact (hevents x hx).imp_right .inl
            · rw [List.mem_singleton.mp hx]
              exact .inr (.inr hguarantee)
          · exact .inr hx

/-- A program that stops does so in an operation whose guarantee allows for the fault. The condition must be one that is
always met: a fault leaves no history to check it on. -/
theorem Prog.fault_of_wp {K : M.Fault → Prop} {p : Prog M α} {w : World M} {e : M.Fault} (h : p.wp C D Q w.state)
    (hcond : ∀ s x, C s x) (hfault : ∀ s op e, D s (.inr op) → M.apply op s = .error e → K e)
    (hrun : p.run w = .error e) : K e := by
  induction p generalizing w with
  | done a => cases hrun
  | look next ih => exact ih w.state h hrun
  | step op next ih =>
      obtain ⟨hguarantee, hnext⟩ := h w.wait.state (World.wait_drift fun x _ => hcond x.1 x.2).1
      rw [run_step] at hrun
      cases happly : M.apply op w.wait.state with
      | error fault =>
          rw [World.perform, happly] at hrun
          cases hrun
          exact hfault _ op _ hguarantee happly
      | ok answer =>
          obtain ⟨r, s⟩ := answer
          rw [World.perform, happly] at hrun
          exact ih r (hnext r s (hcond _ _) happly) hrun

end Rules

/-! ### Triples -/

section Triples

variable {V : Type} {view : M.State → V} {P : V → Prop} {Q : α → V → Prop} {p : Prog M α}

/-- From a state that looks like `P`, the program ends in one that looks like `Q`. What is looked at is a view of the
state that no event changes, which makes every assertion stable. -/
def Prog.Triple (view : M.State → V) (P : V → Prop) (p : Prog M α) (Q : α → V → Prop) : Prop :=
  ∀ s, P (view s) → p.wp (fun _ _ => True) (fun _ _ => True) (fun a s' => Q a (view s')) s

namespace Prog.Triple

theorem pure {a : α} (h : ∀ v, P v → Q a v) : Triple view P (Pure.pure a : Prog M α) Q := fun s hs => h (view s) hs

theorem bind {f : α → Prog M β} {R : β → V → Prop} (h : Triple view P p Q) (hf : ∀ a, Triple view (Q a) (f a) R) :
    Triple view P (p >>= f) R := fun s hs => wp_bind (wp_mono (h s hs) fun a s' hs' => hf a s' hs')

theorem weaken {P' : V → Prop} {Q' : α → V → Prop} (h : Triple view P p Q) (hpre : ∀ v, P' v → P v)
    (hpost : ∀ a v, Q a v → Q' a v) : Triple view P' p Q' :=
  fun s hs => wp_mono (h s (hpre _ hs)) fun a _ hs' => hpost a _ hs'

theorem read {f : M.State → α} (h : ∀ s, P (view s) → Q (f s) (view s)) : Triple view P (Prog.read f) Q :=
  fun s hs => h s hs

theorem perform (hview : ∀ e s, view (M.occur e s) = view s) {op : M.Op} {Q : M.Result op → V → Prop}
    (h : ∀ s r s', P (view s) → M.apply op s = .ok (r, s') → Q r (view s')) :
    Triple view P (Prog.perform op) Q := by
  intro s hs
  refine wp_perform (P := fun s => P (view s)) ?_ ?_ hs
  · intro s e hs _
    rwa [hview]
  · exact fun s hs => ⟨trivial, fun r s' _ happly => h s r s' hs happly⟩

/-- A loop over a list. -/
theorem forM {f : β → Prog M PUnit} {bs : List β} (h : ∀ b ∈ bs, Triple view P (f b) fun _ => P) :
    Triple view P (bs.forM f) fun _ => P := by
  induction bs with
  | nil => exact pure fun _ hv => hv
  | cons b bs ih =>
      obtain ⟨hb, hbs⟩ := List.forall_mem_cons.mp h
      exact bind hb fun _ => ih hbs

theorem run {w w' : World M} {a : α} (h : Triple view P p Q) (hstart : P (view w.state))
    (hrun : p.run w = .ok (a, w')) : Q a (view w'.state) :=
  (Prog.run_of_wp (h w.state hstart) hrun fun _ _ => trivial).1

end Prog.Triple

end Triples

/-- Whether a program ends in a world with a property. -/
def Prog.reaches (p : Prog M α) (w : World M) (f : α → World M → Bool) : Bool :=
  match p.run w with
  | .ok (a, w') => f a w'
  | .error _ => false

theorem Prog.reaches_eq_true {p : Prog M α} {w : World M} {f : α → World M → Bool} (h : p.reaches w f = true) :
    ∃ a w', p.run w = .ok (a, w') ∧ f a w' = true := by
  unfold reaches at h
  split at h
  · rename_i a w' hrun
    exact ⟨a, w', hrun, h⟩
  · cases h

end Machine
