import M20Strain.Interrupt.Calls

/-!
# Runs of an interrupt-driven main loop

The main loop runs tasks one after the other (`body t` is the program of task
`t`), with handlers before, after and inside tasks.

* `Run`: all runs, with their trace.
* `Run.invariant`: an invariant of monitor and state, checked per handler and,
  with `wp`, per task, holds after every run.
* `Checked`: a property of every entry of a trace, proved as an invariant of the
  monitor `watch`.
* `seen`: the monitor that waits for an entry; `collect`: the one that lists entries, by
  `ofCalls` those of calls.
* `Run.fill`: a property of monitor and shared state, at every entry once it holds at
  those that change them.
-/

namespace Interrupt

variable {Op : Type} {Resp : Op → Type} {Irq L H G T : Type}

variable (M : Machine Resp Irq L H) (body : T → Prog Resp Unit)

/-- The runs from `(l, h)`, with their trace. -/
inductive Run (l : L) (h : H) : List (Entry Resp Irq L H) → L → H → Prop where
  | nil : Run l h [] l h
  | irq {tr l₁ h₁ h₂} (i : Irq) : Run l h tr l₁ h₁ → M.handle i h₁ = some h₂ →
      Run l h (tr ++ [.irq i h₁]) l₁ h₂
  | task {tr l₁ h₁ tr₁ l₂ h₂} (t : T) : Run l h tr l₁ h₁ → Exec M (body t) l₁ h₁ tr₁ () l₂ h₂ →
      Run l h (tr ++ tr₁) l₂ h₂

/-- `(l', h')` is reached from `(l, h)` by some run. -/
def Reaches (l : L) (h : H) (l' : L) (h' : H) : Prop := ∃ tr, Run M body l h tr l' h'

variable {M body} {μ : G → Entry Resp Irq L H → G} {l l' l'' : L} {h h' h'' : H}
  {tr tr' : List (Entry Resp Irq L H)}

theorem Run.append (h1 : Run M body l h tr l' h') (h2 : Run M body l' h' tr' l'' h'') :
    Run M body l h (tr ++ tr') l'' h'' := by
  induction h2 with
  | nil => simpa using h1
  | irq i _ hi ih =>
    rw [← List.append_assoc]
    exact .irq i ih hi
  | task t _ he ih =>
    rw [← List.append_assoc]
    exact .task t ih he

/-- A program that has returned leaves room for handlers only. -/
theorem Run.of_ret {α : Type} {a b : α} (he : Exec M (.ret a) l h tr b l' h') : Run M body l h tr l' h' := by
  generalize hp : Prog.ret a = p at he
  induction he with
  | ret => exact .nil
  | call => cases hp
  | @irq _ i l h h₁ _ _ _ _ hi _ ih =>
    have h1 : Run M body l h ([] ++ [.irq i h]) l h₁ := .irq i .nil hi
    exact h1.append (ih hp)

/-- **Invariants of monitor and state.** The two step hypotheses may use that the
state before the step is reachable. -/
theorem Run.invariant {I : G → L → H → Prop} {g : G} (h0 : I g l h)
    (hirq : ∀ i g₁ l₁ h₁ h₂, Reaches M body l h l₁ h₁ → M.handle i h₁ = some h₂ → I g₁ l₁ h₁ →
      I (μ g₁ (.irq i h₁)) l₁ h₂)
    (htask : ∀ t g₁ l₁ h₁, Reaches M body l h l₁ h₁ → I g₁ l₁ h₁ →
      wp M μ (body t) (fun _ => I) g₁ l₁ h₁)
    (hr : Run M body l h tr l' h') : I (tr.foldl μ g) l' h' := by
  induction hr with
  | nil => exact h0
  | irq i hr hi ih =>
    rw [List.foldl_append]
    exact hirq i _ _ _ _ ⟨_, hr⟩ hi ih
  | task t hr he ih =>
    rw [List.foldl_append]
    have hw := htask t _ _ _ ⟨_, hr⟩ ih
    exact wp_iff.1 hw _ _ _ _ he

/-- At every entry, `c` holds of the monitor before it and the entry. -/
def Checked (μ : G → Entry Resp Irq L H → G) (c : G → Entry Resp Irq L H → Prop) :
    G → List (Entry Resp Irq L H) → Prop
  | _, [] => True
  | g, e :: tr => c g e ∧ Checked μ c (μ g e) tr

instance Checked.decidable {μ : G → Entry Resp Irq L H → G} {c : G → Entry Resp Irq L H → Prop}
    [hc : ∀ g e, Decidable (c g e)] : ∀ g tr, Decidable (Checked μ c g tr)
  | _, [] => .isTrue trivial
  | g, e :: tr => @instDecidableAnd _ _ (hc g e) (Checked.decidable (μ g e) tr)

/-- The monitor `μ` that also remembers whether `c` has held so far. -/
def watch (μ : G → Entry Resp Irq L H → G) (c : G → Entry Resp Irq L H → Prop) :
    G × Prop → Entry Resp Irq L H → G × Prop :=
  fun g e => (μ g.1 e, g.2 ∧ c g.1 e)

theorem foldl_watch {c : G → Entry Resp Irq L H → Prop} {g : G} {p : Prop} :
    tr.foldl (watch μ c) (g, p) = (tr.foldl μ g, p ∧ Checked μ c g tr) := by
  induction tr generalizing g p with
  | nil => simp [Checked]
  | cons e tr ih => simp only [List.foldl_cons, watch, ih, Checked, and_assoc]

/-- A check of `μ` alone, while another one is watched. -/
theorem checked_watch {c c' : G → Entry Resp Irq L H → Prop} {k : G × Prop} :
    Checked (watch μ c) (fun k => c' k.1) k tr ↔ Checked μ c' k.1 tr := by
  induction tr generalizing k with
  | nil => exact Iff.rfl
  | cons e tr ih => exact and_congr_right fun _ => ih

theorem checked_iff {c : G → Entry Resp Irq L H → Prop} {g : G} : Checked μ c g tr ↔
    ∀ pre e post, tr = pre ++ e :: post → c (pre.foldl μ g) e := by
  induction tr generalizing g with
  | nil => simp [Checked]
  | cons a tr ih =>
    rw [Checked, ih]
    constructor
    · rintro ⟨ha, H⟩ (_ | ⟨b, pre⟩) e post h1
      · obtain ⟨rfl, -⟩ := List.cons.inj h1
        exact ha
      · obtain ⟨rfl, h2⟩ := List.cons.inj h1
        exact H pre e post h2
    · intro H
      refine ⟨H [] a tr rfl, ?_⟩
      intro pre e post heq
      exact H (a :: pre) e post (by rw [heq]; rfl)

theorem checked_append {c : G → Entry Resp Irq L H → Prop} {g : G} :
    Checked μ c g (tr ++ tr') ↔ Checked μ c g tr ∧ Checked μ c (tr.foldl μ g) tr' := by
  induction tr generalizing g with
  | nil => simp [Checked]
  | cons e tr ih => simp only [List.cons_append, Checked, ih, List.foldl_cons, and_assoc]

theorem Checked.imp {c c' : G → Entry Resp Irq L H → Prop} {g : G} (himp : ∀ g e, c g e → c' g e)
    (hc : Checked μ c g tr) : Checked μ c' g tr := by
  induction tr generalizing g with
  | nil => trivial
  | cons e tr ih => exact ⟨himp g e hc.1, ih hc.2⟩

theorem checked_and {c c' : G → Entry Resp Irq L H → Prop} {g : G} :
    Checked μ (fun g e => c g e ∧ c' g e) g tr ↔ Checked μ c g tr ∧ Checked μ c' g tr := by
  induction tr generalizing g with
  | nil => simp [Checked]
  | cons e tr ih =>
    rw [Checked, Checked, Checked, ih]
    exact and_and_and_comm

/-- A property of the monitor that checked entries preserve holds before each of them. -/
theorem Checked.invariant {c : G → Entry Resp Irq L H → Prop} {I : G → Prop} {g : G} (h0 : I g)
    (hstep : ∀ g e, I g → c g e → I (μ g e)) (hc : Checked μ c g tr) : Checked μ (fun g e => I g ∧ c g e) g tr := by
  induction tr generalizing g with
  | nil => trivial
  | cons e tr ih =>
    obtain ⟨he, hc⟩ := hc
    exact ⟨⟨h0, he⟩, ih (hstep g e h0 he) hc⟩

/-- Entries that pass the check and do not move the monitor. -/
theorem checked_still {c : G → Entry Resp Irq L H → Prop} {g : G} (hc : ∀ e ∈ tr, μ g e = g ∧ c g e) :
    tr.foldl μ g = g ∧ Checked μ c g tr := by
  induction tr with
  | nil => exact ⟨rfl, trivial⟩
  | cons e tr ih =>
    obtain ⟨hg, he⟩ := hc e List.mem_cons_self
    have ih := ih fun e he => hc e (List.mem_cons_of_mem _ he)
    rw [List.foldl_cons, Checked, hg]
    exact ⟨ih.1, he, ih.2⟩

/-- A check that holds of each entry whatever the monitor. -/
theorem checked_of_forall {c : G → Entry Resp Irq L H → Prop} {g : G} (hc : ∀ e ∈ tr, ∀ g, c g e) :
    Checked μ c g tr := by
  induction tr generalizing g with
  | nil => trivial
  | cons e tr ih =>
    refine ⟨hc e List.mem_cons_self g, ih ?_⟩
    intro e he
    exact hc e (List.mem_cons_of_mem _ he)

/-- The monitor that remembers whether an entry satisfied `p`. -/
def seen (p : Entry Resp Irq L H → Bool) : Bool → Entry Resp Irq L H → Bool := fun b e => b || p e

theorem foldl_seen {p : Entry Resp Irq L H → Bool} {b : Bool} : tr.foldl (seen p) b = (b || tr.any p) := by
  induction tr generalizing b with
  | nil => simp
  | cons e tr ih => rw [List.foldl_cons, ih, seen, List.any_cons, Bool.or_assoc]

section Seen

variable {α : Type} {p : Entry Resp Irq L H → Bool} {g g' : Bool} {es : List (Made Resp L)}

/-- What has been seen stays seen. -/
theorem Calls.seen_mono (hc : Calls M (seen p) es g h g' h') (hg : g = true) : g' = true := by
  refine hc.stable (P := fun g _ => g = true) ?_ ?_ hg
  · intro i g h h' _ hg
    rw [seen, hg, Bool.true_or]
  · intro e _ g h hg
    rw [seen, hg, Bool.true_or]

theorem Calls.seen_of_mem {e : Made Resp L} (he : e ∈ es) (hp : ∀ h, p (e.entry h) = true)
    (hc : Calls M (seen p) es g h g' h') : g' = true := by
  induction es generalizing g h with
  | nil => exact absurd he List.not_mem_nil
  | cons a es ih =>
    obtain ⟨g₁, h₁, -, hc⟩ := hc
    rcases List.mem_cons.1 he with rfl | he
    · exact hc.seen_mono (by rw [seen, hp, Bool.or_true])
    · exact ih he hc

/-- A program whose executions all see `p` has it in each trace. -/
theorem exists_of_wp_seen {t : Prog Resp α} {a : α}
    (hw : wp M (seen p) t (fun _ g _ _ => g = true) false l h) (he : Exec M t l h tr a l' h') :
    ∃ e ∈ tr, p e = true := by
  have hs := wp_iff.1 hw tr a l' h' he
  rw [foldl_seen, Bool.false_or] at hs
  exact List.any_eq_true.1 hs

end Seen

/-- The monitor that collects what `f` makes of the entries. -/
def collect {X : Type} (f : Entry Resp Irq L H → Option X) : List X → Entry Resp Irq L H → List X :=
  fun g e => g ++ (f e).toList

/-- A function of calls and answers, on the entries of a trace. -/
def ofCalls {X : Type} (f : (o : Op) → Resp o → Option X) : Entry Resp Irq L H → Option X
  | .call o r _ _ => f o r
  | .irq _ _ => none

theorem collect_irq {X : Type} {f : (o : Op) → Resp o → Option X} {g : List X} {i : Irq} {h : H} :
    collect (ofCalls (L := L) f) g (.irq i h) = g := List.append_nil g

/-- When handlers run makes no difference to what is collected of the calls. -/
theorem collect_commutes {X : Type} {f : (o : Op) → Resp o → Option X} {o : Op} :
    Commutes M (collect (ofCalls f)) o :=
  commutes_of_blind (fun _ _ _ => collect_irq) fun _ _ _ _ _ => rfl

theorem foldl_collect {X : Type} {f : Entry Resp Irq L H → Option X} {g : List X} :
    tr.foldl (collect f) g = g ++ tr.filterMap f := by
  induction tr generalizing g with
  | nil => rw [List.foldl_nil, List.filterMap_nil, List.append_nil]
  | cons e tr ih =>
    rw [List.foldl_cons, ih, collect, List.append_assoc]
    cases he : f e with
    | none => rw [List.filterMap_cons_none he]; rfl
    | some x => rw [List.filterMap_cons_some he]; rfl

/-- The shared state before an entry. -/
def Entry.shared : Entry Resp Irq L H → H
  | .call _ _ _ h => h
  | .irq _ h => h

/-- An entry that is not a call in `quiet`. -/
def Entry.loud (quiet : Op → Bool) : Entry Resp Irq L H → Bool
  | .call o _ _ _ => !quiet o
  | .irq _ _ => true

section Fill

variable {quiet : Op → Bool} {K : G → H → Prop} {g : G}

/-- Quiet calls change neither the shared state nor the monitor, so what holds where the
next loud entry is made, or at the end, holds before them. -/
theorem Exec.fill (hμ : ∀ o, quiet o = true → Ignores μ o)
    (hq : ∀ o r l h l' h', quiet o = true → M.step o r l h = some (l', h') → h' = h)
    {α : Type} {p : Prog Resp α} {a : α} (he : Exec M p l h tr a l' h') (hK : K (tr.foldl μ g) h')
    (hc : Checked μ (fun g e => e.loud quiet = true → K g e.shared) g tr) :
    K g h ∧ Checked μ (fun g e => K g e.shared) g tr := by
  induction he generalizing g with
  | ret => exact ⟨hK, trivial⟩
  | @call o k r l h l₁ h₁ tr a l' h' hs _ ih =>
    obtain ⟨h1, h2⟩ := ih hK hc.2
    have hg : K g h := by
      cases hqo : quiet o with
      | true =>
        -- nothing has changed since the next loud entry
        rw [hμ o hqo, hq _ _ _ _ _ _ hqo hs] at h1
        exact h1
      | false => exact hc.1 (by simp [Entry.loud, hqo])
    exact ⟨hg, hg, h2⟩
  | irq hs _ ih => exact ⟨hc.1 rfl, hc.1 rfl, (ih hK hc.2).2⟩

/-- **A property of monitor and shared state holds at every entry**, if it does at the loud
ones and at the end. -/
theorem Run.fill (hμ : ∀ o, quiet o = true → Ignores μ o)
    (hq : ∀ o r l h l' h', quiet o = true → M.step o r l h = some (l', h') → h' = h)
    (hr : Run M body l h tr l' h') (hK : K (tr.foldl μ g) h')
    (hc : Checked μ (fun g e => e.loud quiet = true → K g e.shared) g tr) :
    Checked μ (fun g e => K g e.shared) g tr := by
  induction hr with
  | nil => trivial
  | irq i _ _ ih =>
    obtain ⟨h1, h2⟩ := checked_append.1 hc
    exact checked_append.2 ⟨ih (h2.1 rfl) h1, h2.1 rfl, trivial⟩
  | task t _ he ih =>
    rw [List.foldl_append] at hK
    obtain ⟨h1, h2⟩ := checked_append.1 hc
    obtain ⟨h3, h4⟩ := he.fill hμ hq hK h2
    exact checked_append.2 ⟨ih h3 h1, h4⟩

end Fill

end Interrupt
