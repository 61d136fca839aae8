import M20Strain.Model.App
import Mathlib.Data.List.TakeWhile

/-!
# The law of `fsm_fire`

`fire_law`: for every table, and guards and actions that transform the user data in any
way, `fsm_fire` evaluates the guards of the current state's rows in order, each on the
user data the ones before it left, up to the first that returns non-zero, and takes that
row. Rows of other states and rows past the sentinel make no difference.
-/

namespace M20Strain

variable {U : Type}

/-- A guard or an action: it reads the current state, and reads and changes the user data. -/
abbrev Handler (U α : Type) := Int → U → α × U

abbrev Row (U : Type) := fsm_trans_t (Handler U)

/-- What `fsm_fire` does: it calls the guard or the action of a row, which find the state and the
user data they are given with, or it stores a state. -/
inductive Call (U : Type) where
  | input (t : Row U) (current_state : Int) (user_data : U)
  | current_state (s : Int)
  | out (t : Row U) (current_state : Int) (user_data : U)

/-- The machine, with the log of what was done. -/
structure Fsm (U : Type) where
  current_state : Int
  user_data : U
  log : List (Call U)

/-- A handler as a step of the machine, which logs the call `c`. -/
def Handler.run {α : Type} (f : Handler U α) (c : Int → U → Call U) : StateM (Fsm U) α := fun m =>
  let r := f m.current_state m.user_data
  (r.1, { m with user_data := r.2, log := m.log ++ [c m.current_state m.user_data] })

def Row.run (t : Row U) : fsm_trans_t (StateM (Fsm U)) where
  orig_state := t.orig_state
  input := t.input.map fun guard => guard.run (.input t)
  dest_state := t.dest_state
  out := t.out.map fun out => out.run (.out t)

/-- `fsm_fire` on a machine. -/
def Fsm.fire (m : Fsm U) (tt : List (Row U)) : FireEnd × Fsm U :=
  fsm_fire (fun m => (m.current_state, m))
    (fun s m => ((), { m with current_state := s, log := m.log ++ [.current_state s] })) (tt.map Row.run) m

section Rows

variable {m : Type → Type}

/-- The rows of state `s` before the first row with a negative `orig_state`. -/
def rowsOf (s : Int) (tt : List (fsm_trans_t m)) : List (fsm_trans_t m) :=
  (tt.takeWhile fun t => 0 ≤ t.orig_state).filter fun t => s = t.orig_state

/-- The table has a sentinel. -/
def Ended (tt : List (fsm_trans_t m)) : Prop := ∃ t ∈ tt, t.orig_state < 0

/-- There are no null guards before the sentinel. -/
def Guarded (tt : List (fsm_trans_t m)) : Prop :=
  ∀ t ∈ tt.takeWhile fun t => 0 ≤ t.orig_state, t.input.isSome

end Rows

example : Ended app_fsm_tt ∧ Guarded app_fsm_tt := ⟨by unfold Ended; decide, by unfold Guarded; decide⟩

/-- The machine after `guard` of row `t` was called. -/
def Fsm.guarded (m : Fsm U) (t : Row U) (guard : Handler U Int) : Fsm U where
  current_state := m.current_state
  user_data := (guard m.current_state m.user_data).2
  log := m.log ++ [.input t m.current_state m.user_data]

/-- The machine after row `t` was taken: the new state is stored, then the action runs once, unless
it is null. -/
def Fsm.taken (m : Fsm U) (t : Row U) : Fsm U :=
  let m := { m with current_state := t.dest_state, log := m.log ++ [.current_state t.dest_state] }
  match t.out with
  | none => m
  | some out => { m with
      user_data := (out m.current_state m.user_data).2
      log := m.log ++ [.out t m.current_state m.user_data] }

variable {m : Fsm U} {t : Row U} {tt tt' : List (Row U)} {guard : Handler U Int}

theorem fire_sentinel (ht : t.orig_state < 0) : m.fire (t :: tt) = (.sentinel, m) := by
  unfold Fsm.fire
  rw [List.map_cons, fsm_fire, if_pos (show (Row.run t).orig_state < 0 from ht)]
  rfl

/-- A row of another state is skipped. -/
theorem fire_other (ht : 0 ≤ t.orig_state) (hs : m.current_state ≠ t.orig_state) : m.fire (t :: tt) = m.fire tt := by
  have h0 : ¬ (Row.run t).orig_state < 0 := Int.not_lt.2 ht
  have hs' : ¬ m.current_state = (Row.run t).orig_state := hs
  unfold Fsm.fire
  rw [List.map_cons, fsm_fire, if_neg h0]
  change (ite (m.current_state = (Row.run t).orig_state) _ _ : StateM (Fsm U) FireEnd) m = _
  rw [if_neg hs']

/-- A row of the current state calls its guard, and is taken if that returns non-zero. -/
theorem fire_row (ht : 0 ≤ t.orig_state) (hs : m.current_state = t.orig_state) (hg : t.input = some guard) :
    m.fire (t :: tt) = if (guard m.current_state m.user_data).1 ≠ 0 then (.took, (m.guarded t guard).taken t)
      else (m.guarded t guard).fire tt := by
  have h0 : ¬ (Row.run t).orig_state < 0 := Int.not_lt.2 ht
  have hg' : (Row.run t).input = some (guard.run (.input t)) := by rw [Row.run, hg]; rfl
  unfold Fsm.fire
  rw [List.map_cons, fsm_fire, if_neg h0]
  change (ite (m.current_state = (Row.run t).orig_state) _ _ : StateM (Fsm U) FireEnd) m = _
  rw [if_pos (show m.current_state = (Row.run t).orig_state from hs), hg']
  change (ite ((guard m.current_state m.user_data).1 ≠ 0) _ _ : StateM (Fsm U) FireEnd) (m.guarded t guard) = _
  split
  · obtain ⟨orig_state, input, dest_state, out⟩ := t
    cases out <;> rfl
  · rfl

theorem rowsOf_sentinel {s : Int} (ht : t.orig_state < 0) : rowsOf s (t :: tt) = [] := by
  rw [rowsOf, List.takeWhile_cons, if_neg (by simpa using ht)]
  rfl

theorem rowsOf_other {s : Int} (ht : 0 ≤ t.orig_state) (hs : s ≠ t.orig_state) :
    rowsOf s (t :: tt) = rowsOf s tt := by
  rw [rowsOf, List.takeWhile_cons, if_pos (by simpa using ht), List.filter_cons, if_neg (by simpa using hs)]
  rfl

theorem rowsOf_row {s : Int} (ht : 0 ≤ t.orig_state) (hs : s = t.orig_state) :
    rowsOf s (t :: tt) = t :: rowsOf s tt := by
  rw [rowsOf, List.takeWhile_cons, if_pos (by simpa using ht), List.filter_cons, if_pos (by simpa using hs)]
  rfl

theorem mem_rows {s : Int} (ht : t ∈ rowsOf s tt) :
    t ∈ (tt.takeWhile fun t => 0 ≤ t.orig_state) ∧ s = t.orig_state := by
  obtain ⟨ht, hs⟩ := List.mem_filter.1 ht
  exact ⟨ht, by simpa using hs⟩

theorem rows_nonneg {s : Int} (ht : t ∈ rowsOf s tt) : 0 ≤ t.orig_state := by
  simpa using List.mem_takeWhile_imp (mem_rows ht).1

def Row.sentinel : Row U := ⟨-1, none, -1, none⟩

theorem Row.sentinel_neg : (Row.sentinel : Row U).orig_state < 0 := Int.negSucc_lt_zero 0

/-- **Other rows make no difference**: what is left of the table is the rows of the current state. -/
theorem fire_rows (he : Ended tt) (hg : ∀ t ∈ rowsOf m.current_state tt, t.input.isSome) :
    m.fire tt = m.fire (rowsOf m.current_state tt ++ [Row.sentinel]) := by
  induction tt generalizing m with
  | nil =>
    obtain ⟨t, ht, -⟩ := he
    cases ht
  | cons t tt ih =>
    by_cases ht : t.orig_state < 0
    · rw [rowsOf_sentinel ht, fire_sentinel ht]
      exact (fire_sentinel Row.sentinel_neg).symm
    · have h0 : 0 ≤ t.orig_state := Int.not_lt.1 ht
      -- the sentinel is still to come
      obtain ⟨t', ht', hneg⟩ := he
      have he : Ended tt := ⟨t', (List.mem_cons.1 ht').resolve_left fun heq => ht (heq ▸ hneg), hneg⟩
      by_cases hs : m.current_state = t.orig_state
      · rw [rowsOf_row h0 hs] at hg ⊢
        obtain ⟨guard, hguard⟩ := Option.isSome_iff_exists.1 (hg t List.mem_cons_self)
        rw [fire_row h0 hs hguard, List.cons_append, fire_row h0 hs hguard]
        have hrest : (m.guarded t guard).fire tt =
            (m.guarded t guard).fire (rowsOf m.current_state tt ++ [Row.sentinel]) :=
          ih he fun t ht => hg t (List.mem_cons_of_mem _ ht)
        rw [hrest]
      · rw [rowsOf_other h0 hs] at hg ⊢
        rw [fire_other h0 hs]
        exact ih he hg

/-- The guards of the rows `tt` return 0, called one after the other from the user data `u`. -/
inductive Declined (s : Int) : List (Row U) → U → List (Call U) → U → Prop where
  | nil {u} : Declined s [] u [] u
  | cons {t : Row U} {guard tt u u₁ calls u'} : t.input = some guard → guard s u = (0, u₁) →
      Declined s tt u₁ calls u' → Declined s (t :: tt) u (.input t s u :: calls) u'

/-- All decline, or there is a first that does not. -/
theorem declined_or {s : Int} (hg : ∀ t ∈ tt, t.input.isSome) (u : U) :
    (∃ calls u', Declined s tt u calls u') ∨ ∃ before t after calls u' guard, tt = before ++ t :: after ∧
      Declined s before u calls u' ∧ t.input = some guard ∧ (guard s u').1 ≠ 0 := by
  induction tt generalizing u with
  | nil => exact .inl ⟨[], u, .nil⟩
  | cons t tt ih =>
    obtain ⟨guard, hguard⟩ := Option.isSome_iff_exists.1 (hg t List.mem_cons_self)
    by_cases hb : (guard s u).1 = 0
    · have hu : guard s u = (0, (guard s u).2) := Prod.ext hb rfl
      obtain ⟨calls, u', hd⟩ | ⟨before, t', after, calls, u', guard', rfl, hd, hg', hb'⟩ :=
        ih (fun t ht => hg t (List.mem_cons_of_mem _ ht)) (guard s u).2
      · exact .inl ⟨_, u', .cons hguard hu hd⟩
      · exact .inr ⟨t :: before, t', after, _, u', guard', rfl, .cons hguard hu hd, hg', hb'⟩
    · exact .inr ⟨[], t, tt, [], u, guard, rfl, .nil, hguard, hb⟩

/-- Rows that decline are passed, and leave the user data to the next. -/
theorem fire_declined {s : Int} {before : List (Row U)} {u u' : U} {calls : List (Call U)}
    (hd : Declined s before u calls u') (hb : ∀ t ∈ before, 0 ≤ t.orig_state ∧ s = t.orig_state)
    (log : List (Call U)) : Fsm.fire ⟨s, u, log⟩ (before ++ tt) = Fsm.fire ⟨s, u', log ++ calls⟩ tt := by
  induction hd generalizing log with
  | nil => simp
  | @cons t guard before u u₁ calls u' hg hu _ ih =>
    obtain ⟨h0, hs⟩ := hb t List.mem_cons_self
    have hdec : (guard s u).1 = 0 := by rw [hu]
    rw [List.cons_append, fire_row h0 hs hg, if_neg (by simpa using hdec)]
    rw [show Fsm.guarded ⟨s, u, log⟩ t guard = ⟨s, u₁, log ++ [.input t s u]⟩ by rw [Fsm.guarded, hu]]
    rw [ih (fun t ht => hb t (List.mem_cons_of_mem _ ht)), List.append_assoc]
    rfl

/-- **The law of `fsm_fire`.** The guards of the rows of the current state are called in order
until one returns non-zero. If none does, nothing else happens. Otherwise the row of that guard is
taken, and no other. A table with the same rows of the current state gives the same. -/
theorem fire_law (he : Ended tt) (hg : Guarded tt) (m : Fsm U) :
    ((∃ calls u', Declined m.current_state (rowsOf m.current_state tt) m.user_data calls u' ∧
        m.fire tt = (.sentinel, ⟨m.current_state, u', m.log ++ calls⟩)) ∨
      ∃ before t after calls u' guard, rowsOf m.current_state tt = before ++ t :: after ∧
        Declined m.current_state before m.user_data calls u' ∧
        t.input = some guard ∧ (guard m.current_state u').1 ≠ 0 ∧
        m.fire tt = (.took, Fsm.taken ⟨m.current_state, (guard m.current_state u').2,
          m.log ++ calls ++ [.input t m.current_state u']⟩ t)) ∧
    ∀ tt', Ended tt' → rowsOf m.current_state tt' = rowsOf m.current_state tt → m.fire tt' = m.fire tt := by
  have hrows : ∀ t ∈ rowsOf m.current_state tt, t.input.isSome := fun t ht => hg t (mem_rows ht).1
  have hmine : ∀ t ∈ rowsOf m.current_state tt, 0 ≤ t.orig_state ∧ m.current_state = t.orig_state :=
    fun t ht => ⟨rows_nonneg ht, (mem_rows ht).2⟩
  have heq := fire_rows he hrows
  refine ⟨?_, ?_⟩
  · obtain ⟨calls, u', hd⟩ | ⟨before, t, after, calls, u', guard, hsplit, hd, hguard, hb⟩ :=
      declined_or hrows m.user_data
    · refine .inl ⟨calls, u', hd, ?_⟩
      rw [heq]
      exact (fire_declined hd hmine m.log).trans (fire_sentinel Row.sentinel_neg)
    · refine .inr ⟨before, t, after, calls, u', guard, hsplit, hd, hguard, hb, ?_⟩
      rw [hsplit] at hmine
      obtain ⟨h0, hs⟩ := hmine t (by simp)
      rw [heq, hsplit, List.append_assoc]
      refine (fire_declined hd (fun t ht => hmine t (List.mem_append_left _ ht)) m.log).trans ?_
      have hrow : Fsm.fire ⟨m.current_state, u', m.log ++ calls⟩ (t :: (after ++ [Row.sentinel])) = _ :=
        fire_row h0 hs hguard
      exact hrow.trans (if_pos hb)
  · intro tt' he' hrows'
    rw [heq, ← hrows']
    exact fire_rows he' (by rwa [hrows'])

/-- The first guard counts and declines, so the second finds a positive number. -/
def counting : List (Row ℕ) :=
  [⟨0, some fun _ n => (0, n + 1), 1, none⟩, ⟨1, some fun _ n => (1, n), 0, none⟩,
    ⟨0, some fun _ n => (n, n), 2, some fun s n => ((), n + s.toNat)⟩, .sentinel]

/-- Without the row of state 1. -/
theorem fire_law_counting : Fsm.fire ⟨0, 0, []⟩ (counting.eraseIdx 1) = Fsm.fire ⟨0, 0, []⟩ counting ∧
    (Fsm.fire ⟨0, 0, []⟩ counting).1 = .took ∧ (Fsm.fire ⟨0, 0, []⟩ counting).2.user_data = 3 := by
  have hended : Ended counting ∧ Ended (counting.eraseIdx 1) := by unfold Ended; decide
  have hguarded : Guarded counting := by unfold Guarded; decide
  exact ⟨(fire_law hended.1 hguarded ⟨0, 0, []⟩).2 _ hended.2 rfl, rfl, rfl⟩

end M20Strain
