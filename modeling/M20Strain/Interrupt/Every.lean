import M20Strain.Interrupt.Serial

/-!
# What a program can ever call

Properties of the calls that a program can make whatever it is answered (`AllCalls`) are read
off its tree, with no state and no execution.

* `Run.all_calls`: what holds of all calls of all tasks holds of every call of a run.
* `Run.preserves`: what handlers and such calls preserve holds along a run.
* `Last`: the program returns after a call that satisfies `P`.
* `Stops`: the program can get stuck, at a call that has no answer.
-/

namespace Interrupt

open Prog

variable {Op Op' : Type} {Resp : Op → Type} {Resp' : Op' → Type} {Irq L H T α β : Type} {P Q : Op → Prop}
  {p : Prog Resp α} {f : α → Prog Resp β}

namespace AllCalls

theorem op_iff {o : Op} : AllCalls P (op o : Prog Resp (Resp o)) ↔ P o := by
  simp [op, AllCalls]

theorem of_forall (hP : ∀ o, P o) (p : Prog Resp α) : AllCalls P p := by
  induction p with
  | ret a => trivial
  | call o k ih => exact ⟨hP o, ih⟩

theorem imp (hPQ : ∀ o, P o → Q o) (hp : AllCalls P p) : AllCalls Q p := by
  induction p with
  | ret a => trivial
  | call o k ih => exact ⟨hPQ o hp.1, fun r => ih r (hp.2 r)⟩

theorem ite {b : Prop} [Decidable b] {q : Prog Resp α} (hp : AllCalls P p) (hq : AllCalls P q) :
    AllCalls P (if b then p else q) := by
  split
  · exact hp
  · exact hq

theorem embed {inj : Op' → Op} {back : ∀ o, Resp (inj o) → Resp' o} {p : Prog Resp' α}
    (hp : AllCalls (fun o => P (inj o)) p) : AllCalls P (p.embed inj back) := by
  induction p with
  | ret a => trivial
  | call o k ih => exact ⟨hp.1, fun r => ih _ (hp.2 _)⟩

end AllCalls

/-- After a call that satisfies `P` the program returns. -/
def Last (P : Op → Prop) : Prog Resp α → Prop
  | ret _ => True
  | call o k => (P o → ∀ r, ∃ a, k r = ret a) ∧ ∀ r, Last P (k r)

namespace Last

/-- A program that makes no such call may come before. -/
theorem after (hp : AllCalls (fun o => ¬ P o) p) (hf : ∀ a, Last P (f a)) : Last P (p >>= f) := by
  induction p with
  | ret a => exact hf a
  | call o k ih => exact ⟨fun ho => absurd ho hp.1, fun r => ih r (hp.2 r)⟩

theorem of_not (hp : AllCalls (fun o => ¬ P o) p) : Last P p := by
  rw [← bind_ret p]
  exact after hp fun _ => trivial

/-- The result may be changed. -/
theorem map (hp : Last P p) (f : α → β) : Last P (p >>= fun a => ret (f a)) := by
  induction p with
  | ret a => trivial
  | call o k ih =>
    refine ⟨?_, fun r => ih r (hp.2 r)⟩
    intro ho r
    obtain ⟨a, ha⟩ := hp.1 ho r
    change ∃ b, (k r).bind _ = ret b
    rw [ha]
    exact ⟨f a, rfl⟩

end Last

/-- An entry that is a call is one that satisfies `P`. -/
def Entry.OfCall (P : Op → Prop) : Entry Resp Irq L H → Prop
  | .call o _ _ _ => P o
  | .irq _ _ => True

variable {M : Machine Resp Irq L H} {l l' : L} {h h' : H} {tr : List (Entry Resp Irq L H)}

/-- An execution of two programs, one after the other, in its two parts. -/
theorem Exec.of_bind {b : β} (he : Exec M (p >>= f) l h tr b l' h') :
    ∃ a tr₁ l₁ h₁ tr₂, tr = tr₁ ++ tr₂ ∧ Exec M p l h tr₁ a l₁ h₁ ∧ Exec M (f a) l₁ h₁ tr₂ b l' h' := by
  generalize hq : p >>= f = q at he
  induction he generalizing p with
  | @ret b l h =>
    cases p with
    | ret a => exact ⟨a, [], l, h, [], rfl, .ret, by rw [← ret_bind a f, hq]; exact .ret⟩
    | call o k => cases hq
  | @call o k r l h l₁ h₁ tr b l' h' hs he ih =>
    cases p with
    | ret a => exact ⟨a, [], l, h, _, rfl, .ret, by rw [← ret_bind a f, hq]; exact .call hs he⟩
    | call o' k' =>
      cases hq
      obtain ⟨a, tr₁, l₂, h₂, tr₂, rfl, h1, h2⟩ := ih rfl
      exact ⟨a, _, l₂, h₂, tr₂, rfl, .call hs h1, h2⟩
  | irq hi _ ih =>
    obtain ⟨a, tr₁, l₂, h₂, tr₂, rfl, h1, h2⟩ := ih hq
    exact ⟨a, _, l₂, h₂, tr₂, rfl, .irq hi h1, h2⟩

/-- The first call is made. -/
theorem Exec.mem_call {o : Op} {k : Resp o → Prog Resp α} {a : α} (he : Exec M (Prog.call o k) l h tr a l' h') :
    ∃ r h₁, .call o r l h₁ ∈ tr := by
  generalize hq : Prog.call o k = q at he
  induction he with
  | ret => cases hq
  | @call _ _ r l h _ _ _ _ _ _ _ _ _ =>
    cases hq
    exact ⟨r, h, List.mem_cons_self⟩
  | irq _ _ ih =>
    obtain ⟨r, h₁, hmem⟩ := ih hq
    exact ⟨r, h₁, List.mem_cons_of_mem _ hmem⟩

/-- The result changes nothing. -/
theorem Exec.of_map {f : α → β} {b : β} (he : Exec M (p >>= fun a => Prog.ret (f a)) l h tr b l' h') :
    ∃ a, Exec M p l h tr a l' h' := by
  generalize hq : (p >>= fun a => Prog.ret (f a)) = q at he
  induction he generalizing p with
  | ret =>
    cases p with
    | ret a => exact ⟨a, .ret⟩
    | call o k => cases hq
  | call hs _ ih =>
    cases p with
    | ret a => cases hq
    | call o' k' =>
      cases hq
      obtain ⟨a, he⟩ := ih rfl
      exact ⟨a, .call hs he⟩
  | irq hi _ ih =>
    obtain ⟨a, he⟩ := ih hq
    exact ⟨a, .irq hi he⟩

theorem AllCalls.entries {a : α} (hp : AllCalls P p) (he : Exec M p l h tr a l' h') : ∀ e ∈ tr, e.OfCall P := by
  intro e hmem
  cases e with
  | call o r l h => exact hp.exec he hmem
  | irq i h => trivial

/-- **Every call of a run** is one of a task. -/
theorem Run.all_calls {body : T → Prog Resp Unit} (hr : Run M body l h tr l' h')
    (hp : ∀ t, AllCalls P (body t)) : ∀ e ∈ tr, e.OfCall P := by
  induction hr with
  | nil => exact List.forall_mem_nil _
  | irq i _ _ ih => exact List.forall_mem_append.2 ⟨ih, List.forall_mem_singleton.2 trivial⟩
  | task t _ he ih => exact List.forall_mem_append.2 ⟨ih, (hp t).entries he⟩

section Preserves

variable {G : Type} {μ : G → Entry Resp Irq L H → G} {I : G → L → H → Prop} {g : G} {a : α}

/-- What handlers and calls that satisfy `P` preserve, a program with such calls does. -/
theorem AllCalls.preserves (hcall : ∀ g o r l h l' h', P o → M.step o r l h = some (l', h') → I g l h →
      I (μ g (.call o r l h)) l' h')
    (hirq : ∀ g i l h h', M.handle i h = some h' → I g l h → I (μ g (.irq i h)) l h')
    (hp : AllCalls P p) (he : Exec M p l h tr a l' h') (hI : I g l h) : I (tr.foldl μ g) l' h' := by
  induction he generalizing g with
  | ret => exact hI
  | call hs _ ih => exact ih (hp.2 _) (hcall _ _ _ _ _ _ _ hp.1 hs hI)
  | irq hi _ ih => exact ih hp (hirq _ _ _ _ _ hi hI)

theorem Run.preserves {body : T → Prog Resp Unit}
    (hcall : ∀ g o r l h l' h', P o → M.step o r l h = some (l', h') → I g l h → I (μ g (.call o r l h)) l' h')
    (hirq : ∀ g i l h h', M.handle i h = some h' → I g l h → I (μ g (.irq i h)) l h')
    (hp : ∀ t, AllCalls P (body t)) (hr : Run M body l h tr l' h') (hI : I g l h) : I (tr.foldl μ g) l' h' := by
  induction hr with
  | nil => exact hI
  | irq i _ hi ih =>
    rw [List.foldl_append]
    exact hirq _ _ _ _ _ hi ih
  | task t _ he ih =>
    rw [List.foldl_append]
    exact (hp t).preserves hcall hirq he ih

end Preserves

/-- Some execution of the program from `(l, h)` comes to call `o` in `(l', h')`, which has no
answer there. -/
inductive Stops (M : Machine Resp Irq L H) : Prog Resp α → L → H → Op → L → H → Prop where
  | now {o k l h} : (∀ r, M.step o r l h = none) → Stops M (call o k) l h o l h
  | call {o k r l h l₁ h₁ o' l' h'} : M.step o r l h = some (l₁, h₁) → Stops M (k r) l₁ h₁ o' l' h' →
      Stops M (call o k) l h o' l' h'
  | irq {p i l h h₁ o l' h'} : M.handle i h = some h₁ → Stops M p l h₁ o l' h' → Stops M p l h o l' h'

/-- **A program gets stuck only at one of its calls.** -/
theorem AllCalls.stops {o : Op} (hp : AllCalls P p) (hs : Stops M p l h o l' h') :
    P o ∧ ∀ r, M.step o r l' h' = none := by
  induction hs with
  | now hn => exact ⟨hp.1, hn⟩
  | call _ _ ih => exact ih (hp.2 _)
  | irq _ _ ih => exact ih hp

end Interrupt
