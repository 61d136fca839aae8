import M20Strain.Proof.Bench

/-!
# The loop that closes the connections

`reset_timer_sleep` compares its index with the pointer `nConnections`, so the loop runs
as often as the counter's address says.

* `wp_reset_timer_sleep`: what it does with the table, for every content and address.
* `close_loop_never`: it never closes just the recorded connections, and it reads the
  table at every index below the address.

All this is about a loop whose loads are answered. On the target they leave the RAM before
the loop ends (`task_stops`).
-/

namespace M20Strain

open Interrupt Prog

variable {D : Type} {bus : SpiBus D}

/-- What the way to sleep does with the table of connections, and its last two steps. -/
inductive Closing where
  | read (i : ℕ)
  | close (c : UInt8)
  | arm
  | enter
  deriving DecidableEq, Repr

def Op.closing : Op → Option Closing
  | .main (.rd_connections i) => some (.read i)
  | .main (.ble (.sl_bt_connection_close c)) => some (.close c)
  | .main .GPIO_EM4EnablePinWakeup => some .arm
  | .shr .EMU_EnterEM4 => some .enter
  | _ => none

def closing : Event D → Option Closing := ofCalls fun o _ => o.closing

/-- From index `i` on, each of the handles `cs` is read and closed. -/
def closeEach : List UInt8 → ℕ → List Closing
  | [], _ => []
  | c :: cs, i => .read i :: .close c :: closeEach cs (i + 1)

/-- **The recorded connections are closed**, each once and in order, nothing else of the
table is read, and then the device arms its wake-up pin and enters EM4. -/
def ClosesRecorded (l : Local D) (tr : List (Event D)) : Prop :=
  tr.filterMap closing = closeEach (recorded l) 0 ++ [.arm, .enter]

/-- `cs` is the table from index `i` on, as far as the table goes. -/
def Table (l : Local D) (i : ℕ) (cs : List UInt8) : Prop :=
  ∀ j c, cs[j]? = some c → ∀ hi : i + j < 10, c = l.connections ⟨i + j, hi⟩

theorem Table.cons {l : Local D} {i : ℕ} {c : UInt8} {cs : List UInt8}
    (hc : ∀ hi : i < 10, c = l.connections ⟨i, hi⟩) (hcs : Table l (i + 1) cs) : Table l i (c :: cs) := by
  intro j b hb hi
  cases j with
  | zero =>
    obtain rfl := Option.some.inj hb
    exact hc hi
  | succ j =>
    have hb := hcs j b hb (by omega)
    rw [hb]
    congr 2
    omega

variable {g : List Closing} {l : Local D} {h : Shared} {α : Type}
  {Q : α → List Closing → Local D → Shared → Prop}

/-- **The loop reads and closes the table** from index `i` on, `n` times. -/
theorem collect_close_connections {n i : ℕ} {k : Unit → AppM α}
    (hk : ∀ cs, cs.length = n → Table l i cs →
      wp (firmware bus) (collect closing) (k ()) Q (g ++ closeEach cs i) l h) :
    wp (firmware bus) (collect closing) (close_connections n i >>= k) Q g l h := by
  induction n generalizing g i with
  | zero =>
    have hw := hk [] rfl fun j c hc => by cases hc
    rw [closeEach, List.append_nil] at hw
    exact hw
  | succ n ih =>
    simp only [close_connections, bind_assoc]
    refine collect_own.2 fun c l₁ hs => ?_
    -- a load leaves the table alone, and inside the table it answers the entry
    simp only [MainOp.step] at hs
    have hl : l₁ = l ∧ ∀ hi : i < 10, c = l.connections ⟨i, hi⟩ := by
      split at hs
      · obtain ⟨hc, hl⟩ := Option.ite_none_right_eq_some.1 hs
        exact ⟨(Option.some.inj hl).symm, fun _ => hc⟩
      · rename_i hi
        exact ⟨(Option.some.inj hs).symm, fun h10 => absurd h10 hi⟩
    obtain ⟨rfl, hc⟩ := hl
    refine collect_own.2 fun sc l₂ hs₂ => ?_
    obtain rfl : l₁ = l₂ := Option.some.inj hs₂
    refine ih fun cs hn hcs => ?_
    have hw := hk (c :: cs) (by rw [List.length_cons, hn]) (hcs.cons hc)
    simp only [closeEach, Op.closing, Option.toList_some, List.append_assoc, List.cons_append,
      List.nil_append] at hw ⊢
    exact hw

/-- **What `reset_timer_sleep` does**: as many iterations as the address of the counter. -/
theorem wp_reset_timer_sleep : wp (firmware bus) (collect closing) reset_timer_sleep
    (fun _ g _ _ => ∃ cs, cs.length = l.user.nConnections.val ∧ Table l 0 cs ∧
      g = closeEach cs 0 ++ [.arm, .enter]) [] l h := by
  unfold reset_timer_sleep
  refine collect_own.2 fun _ l₁ hs => ?_
  obtain rfl := Option.some.inj hs
  refine collect_own.2 fun _ l₂ hs => ?_
  obtain rfl := Option.some.inj hs
  refine collect_shr fun _ _ l₃ h₃ hs => ?_
  obtain ⟨rfl, rfl⟩ := Prod.mk.inj (Option.some.inj hs)
  refine collect_shr fun _ _ l₄ h₄ hs => ?_
  obtain ⟨rfl, rfl⟩ := Prod.mk.inj (Option.some.inj hs)
  refine collect_own.2 fun nConnections l₅ hs => ?_
  obtain ⟨rfl, hl⟩ := Option.ite_none_right_eq_some.1 hs
  obtain rfl := Option.some.inj hl
  refine collect_close_connections fun cs hn hcs => ?_
  refine collect_own.2 fun _ _ _ => collect_shr fun _ _ _ _ _ => collect_pure fun _ => ?_
  exact ⟨cs, hn, hcs, by simp [Op.closing]⟩

variable (bus l h)

theorem allCalls_close_connections (n i : ℕ) : AllCalls
    (fun o => ∀ l h, ∃ r l' h', (firmware bus).step o r l h = some (l', h')) (close_connections n i) := by
  induction n generalizing i with
  | zero => trivial
  | succ n ih =>
    refine ⟨?_, fun c => ⟨?_, fun _ => ih (i + 1)⟩⟩
    · intro l h
      by_cases hi : i < 10
      · exact ⟨l.connections ⟨i, hi⟩, l, h, by simp [firmware, MainOp.step, hi]⟩
      · exact ⟨(0 : UInt8), l, h, by simp [firmware, MainOp.step, hi]⟩
    · intro l h
      exact ⟨SL_STATUS_OK, l, h, rfl⟩

theorem reset_timer_sleep_returns : ∃ tr l' h', Exec (firmware bus) reset_timer_sleep l h tr () l' h' := by
  have hp : AllCalls (fun o => ∀ l h, ∃ r l' h', (firmware bus).step o r l h = some (l', h'))
      reset_timer_sleep := by
    refine ⟨fun l h => ⟨(), _, _, rfl⟩, fun _ => ⟨fun l h => ⟨(), _, _, rfl⟩, fun _ => ?_⟩⟩
    refine ⟨fun l h => ⟨(), _, _, rfl⟩, fun _ => ⟨fun l h => ⟨SL_STATUS_OK, _, _, rfl⟩, fun _ => ?_⟩⟩
    refine ⟨fun l h => ⟨l.user.nConnections, l, h, by simp [firmware, MainOp.step]⟩, fun nConnections => ?_⟩
    refine (allCalls_close_connections bus nConnections.val 0).bind fun _ => ?_
    refine ⟨fun l h => ⟨(), _, _, rfl⟩, fun _ => ⟨fun l h => ⟨l.driver.ads, _, _, rfl⟩, fun _ => trivial⟩⟩
  obtain ⟨tr, ⟨⟩, l', h', he⟩ := hp.returns (l := l) (h := h)
  exact ⟨tr, l', h', he⟩

variable {bus l h} {l' : Local D} {h' : Shared} {tr : List (Event D)}

theorem mem_closeEach {cs : List UInt8} {i k : ℕ} :
    Closing.read k ∈ closeEach cs i ↔ i ≤ k ∧ k < i + cs.length := by
  induction cs generalizing i with
  | nil => simp [closeEach]
  | cons c cs ih =>
    simp only [closeEach, List.mem_cons, Closing.read.injEq, reduceCtorEq, false_or, ih, List.length_cons]
    omega

theorem recorded_length (l : Local D) : (recorded l).length ≤ 10 := by
  simp only [recorded, List.length_take, List.length_ofFn]
  omega

/-- The list of an execution of `reset_timer_sleep`. -/
theorem closed_list (he : Exec (firmware bus) reset_timer_sleep l h tr () l' h') :
    ∃ cs, cs.length = l.user.nConnections.val ∧ Table l 0 cs ∧
      tr.filterMap closing = closeEach cs 0 ++ [.arm, .enter] := by
  have hw := wp_iff.1 wp_reset_timer_sleep tr () l' h' he
  rwa [foldl_collect, List.nil_append] at hw

theorem reads_iff (he : Exec (firmware bus) reset_timer_sleep l h tr () l' h') (i : ℕ) :
    .read i ∈ tr.filterMap closing ↔ i < l.user.nConnections.val := by
  obtain ⟨cs, hn, -, htr⟩ := closed_list he
  rw [htr, List.mem_append, mem_closeEach, hn]
  simp

/-- The address of the counter is far beyond the number of entries. -/
theorem not_closesRecorded (he : Exec (firmware bus) reset_timer_sleep l h tr () l' h') :
    ¬ ClosesRecorded l tr := by
  intro hc
  have hread : .read 10 ∈ tr.filterMap closing := by
    rw [reads_iff he]
    have := l.user.nConnections.le
    omega
  rw [hc, List.mem_append, mem_closeEach] at hread
  have := recorded_length l
  rcases hread with hr | hr
  · omega
  · simp at hr

/-- **The recorded connections are never what is closed**: whatever the table holds, whatever
the counter says and wherever it lives, `reset_timer_sleep` returns if its loads are answered, and
on its way it reads the table at every index below the counter's address. -/
theorem close_loop_never (bus : SpiBus D) (l : Local D) (h : Shared) :
    (∃ tr l' h', Exec (firmware bus) reset_timer_sleep l h tr () l' h') ∧
    ∀ tr l' h', Exec (firmware bus) reset_timer_sleep l h tr () l' h' →
      ¬ ClosesRecorded l tr ∧ ∀ i, .read i ∈ tr.filterMap closing ↔ i < l.user.nConnections.val := by
  refine ⟨reset_timer_sleep_returns bus l h, ?_⟩
  intro tr l' h' he
  exact ⟨not_closesRecorded he, reads_iff he⟩

/-- No connection recorded, and yet the table is read past its end. -/
theorem reads_past_end : ∃ tr l' h', Exec (firmware anyBus) reset_timer_sleep (booted false false).1
    (booted false false).2 tr () l' h' ∧ recorded (booted false false).1 = [] ∧
      ¬ ClosesRecorded (booted false false).1 tr ∧ .read 10 ∈ tr.filterMap closing := by
  obtain ⟨tr, l', h', he⟩ := reset_timer_sleep_returns anyBus (booted false false).1 (booted false false).2
  exact ⟨tr, l', h', he, rfl, not_closesRecorded he, (reads_iff he 10).2 (by decide)⟩

end M20Strain
