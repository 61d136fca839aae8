import Mathlib.Data.Nat.Notation

/-!
# Fields of a state

`Fields F V S` are parts of a state `S`, named by `F`, that are read and overwritten
independently of each other.

* `Fields.get_run`: after a sequence of writes, a field has the value of the last write to it.
* `Fields.masked`: the fields that masks cut out of words. Where the masks of a word do not
  overlap, clearing the bits of the mask and setting those of the value is such a write.
* `Fields.masked_run_rest`: the bits in no mask stay.
-/

namespace Binary

variable {F R V S : Type}

/-- Parts of a state that can be read and overwritten, each without regard to the others. -/
structure Fields (F V S : Type) where
  Fits : F → V → Prop
  get : F → S → V
  put : F → V → S → S
  get_put : ∀ {f v} s, Fits f v → get f (put f v s) = v
  get_put_of_ne : ∀ {f g v} s, Fits g v → f ≠ g → get f (put g v s) = get f s
  put_get : ∀ f s, put f (get f s) s = s
  put_put : ∀ {f v} v' s, Fits f v → put f v' (put f v s) = put f v' s
  put_comm : ∀ {f g v v'} s, Fits f v → Fits g v' → f ≠ g → put f v (put g v' s) = put g v' (put f v s)

namespace Fields

/-- A write of a value that fits its field. -/
structure Write (φ : Fields F V S) where
  field : F
  value : V
  fits : φ.Fits field value

variable {φ : Fields F V S}

def Write.apply (x : φ.Write) (s : S) : S := φ.put x.field x.value s

/-- The value of the last write to field `f`. -/
def lastValue [DecidableEq F] (f : F) (ws : List φ.Write) : Option V :=
  (ws.filter (·.field = f)).getLast?.map (·.value)

/-- Writes one after the other. -/
def run (ws : List φ.Write) (s : S) : S := ws.foldl (fun s x => x.apply s) s

theorem run_concat {ws : List φ.Write} {x : φ.Write} {s : S} : run (ws ++ [x]) s = x.apply (run ws s) :=
  List.foldl_append

/-- **The last write to a field stays.** -/
theorem get_run [DecidableEq F] {f : F} {ws : List φ.Write} {s : S} :
    φ.get f (run ws s) = (lastValue f ws).getD (φ.get f s) := by
  induction ws generalizing s with
  | nil => rfl
  | cons x ws ih =>
    change φ.get f (run ws (x.apply s)) = _
    rw [ih]
    unfold lastValue
    by_cases hx : x.field = f
    · subst hx
      rw [List.filter_cons_of_pos (by simp), List.getLast?_cons]
      have hget : φ.get x.field (x.apply s) = x.value := φ.get_put s x.fits
      rw [hget]
      cases (ws.filter (·.field = x.field)).getLast? <;> rfl
    · rw [List.filter_cons_of_neg (by simpa using hx)]
      have hget : φ.get f (x.apply s) = φ.get f s := φ.get_put_of_ne s x.fits (Ne.symm hx)
      rw [hget]

/-- A write changes nothing exactly when the field has its value. -/
theorem Write.apply_eq_self_iff {x : φ.Write} {s : S} : x.apply s = s ↔ φ.get x.field s = x.value := by
  constructor
  · intro hs
    rw [← hs]
    exact φ.get_put s x.fits
  · intro hv
    unfold Write.apply
    rw [← hv]
    exact φ.put_get x.field s

/-- Writes to different fields commute. -/
theorem Write.apply_comm {x y : φ.Write} (hne : x.field ≠ y.field) (s : S) :
    x.apply (y.apply s) = y.apply (x.apply s) := φ.put_comm s x.fits y.fits hne

/-- Of two writes to a field only the second counts. -/
theorem Write.apply_apply {x y : φ.Write} (heq : x.field = y.field) (s : S) : y.apply (x.apply s) = y.apply s := by
  unfold Write.apply
  rw [← heq]
  exact φ.put_put y.value s x.fits

end Fields

section Mask

variable {w : ℕ} {m m' v v' : BitVec w}

/-- Clear the bits of the mask and set those of the value. -/
def insertBits (m v x : BitVec w) : BitVec w := (x &&& ~~~m) ||| v

theorem getElem_insertBits {x : BitVec w} {i : ℕ} (hi : i < w) : (insertBits m v x)[i] = (x[i] && !m[i] || v[i]) := by
  simp [insertBits]

/-- The bits of a value inside a mask are bits of the mask. -/
theorem getElem_of_inside (hv : v &&& ~~~m = 0) {i : ℕ} (hi : i < w) (hb : v[i] = true) : m[i] = true := by
  have h0 : (v &&& ~~~m)[i] = false := by simp [hv]
  simpa [hb] using h0

theorem getElem_of_disjoint (hm : m &&& m' = 0) {i : ℕ} (hi : i < w) (hb : m[i] = true) : m'[i] = false := by
  have h0 : (m &&& m')[i] = false := by simp [hm]
  simpa [hb] using h0

theorem insertBits_and_mask (hv : v &&& ~~~m = 0) (x : BitVec w) : insertBits m v x &&& m = v := by
  ext i hi
  have h1 := getElem_of_inside hv hi
  rw [BitVec.getElem_and, getElem_insertBits]
  grind

theorem insertBits_and_of_disjoint (hv : v &&& ~~~m = 0) (hm : m &&& m' = 0) (x : BitVec w) :
    insertBits m v x &&& m' = x &&& m' := by
  ext i hi
  have h1 := getElem_of_inside hv hi
  have h2 := getElem_of_disjoint hm hi
  rw [BitVec.getElem_and, BitVec.getElem_and, getElem_insertBits]
  grind

theorem insertBits_self (m x : BitVec w) : insertBits m (x &&& m) x = x := by
  ext i hi
  rw [getElem_insertBits, BitVec.getElem_and]
  grind

theorem insertBits_insertBits (hv : v &&& ~~~m = 0) (x : BitVec w) :
    insertBits m v' (insertBits m v x) = insertBits m v' x := by
  ext i hi
  have h1 := getElem_of_inside hv hi
  rw [getElem_insertBits, getElem_insertBits, getElem_insertBits]
  grind

theorem insertBits_comm (hv : v &&& ~~~m = 0) (hv' : v' &&& ~~~m' = 0) (hm : m &&& m' = 0) (x : BitVec w) :
    insertBits m v (insertBits m' v' x) = insertBits m' v' (insertBits m v x) := by
  ext i hi
  have h1 := getElem_of_inside hv hi
  have h2 := getElem_of_inside hv' hi
  have h3 := getElem_of_disjoint hm hi
  simp only [getElem_insertBits]
  grind

end Mask

namespace Fields

variable {w : ℕ} (ρ : Fields R (BitVec w) S) (reg : F → R) (mask : F → BitVec w)

/-- The fields that masks cut out of the words `ρ`, field `f` out of word `reg f`. -/
def masked (hρ : ∀ r v, ρ.Fits r v) (hd : ∀ f g, f ≠ g → reg f = reg g → mask f &&& mask g = 0) :
    Fields F (BitVec w) S where
  Fits f v := v &&& ~~~mask f = 0
  get f s := ρ.get (reg f) s &&& mask f
  put f v s := ρ.put (reg f) (insertBits (mask f) v (ρ.get (reg f) s)) s
  get_put s hv := by
    rw [ρ.get_put s (hρ _ _), insertBits_and_mask hv]
  get_put_of_ne := by
    intro f g v s hv hne
    by_cases hr : reg f = reg g
    · rw [hr, ρ.get_put s (hρ _ _), insertBits_and_of_disjoint hv (hd g f hne.symm hr.symm)]
    · rw [ρ.get_put_of_ne s (hρ _ _) hr]
  put_get f s := by
    rw [insertBits_self, ρ.put_get]
  put_put v' s hv := by
    rw [ρ.get_put s (hρ _ _), ρ.put_put _ s (hρ _ _), insertBits_insertBits hv]
  put_comm := by
    intro f g v v' s hv hv' hne
    by_cases hr : reg f = reg g
    · rw [hr, ρ.get_put s (hρ _ _), ρ.get_put s (hρ _ _), ρ.put_put _ s (hρ _ _), ρ.put_put _ s (hρ _ _),
        insertBits_comm hv hv' (hd f g hne hr)]
    · rw [ρ.get_put_of_ne s (hρ _ _) hr, ρ.get_put_of_ne s (hρ _ _) (Ne.symm hr),
        ρ.put_comm s (hρ _ _) (hρ _ _) hr]

variable {ρ reg mask}

/-- **Bits in no mask stay.** -/
theorem masked_run_rest {hρ : ∀ r v, ρ.Fits r v} {hd : ∀ f g, f ≠ g → reg f = reg g → mask f &&& mask g = 0}
    {r : R} {m : BitVec w} (hm : ∀ f, reg f = r → mask f &&& m = 0)
    (ws : List (ρ.masked reg mask hρ hd).Write) (s : S) : ρ.get r (run ws s) &&& m = ρ.get r s &&& m := by
  induction ws generalizing s with
  | nil => rfl
  | cons x ws ih =>
    change ρ.get r (run ws (x.apply s)) &&& m = _
    rw [ih]
    change ρ.get r (ρ.put (reg x.field) (insertBits (mask x.field) x.value (ρ.get (reg x.field) s)) s) &&& m = _
    by_cases hr : reg x.field = r
    · subst hr
      rw [ρ.get_put s (hρ _ _), insertBits_and_of_disjoint x.fits (hm x.field rfl)]
    · rw [ρ.get_put_of_ne s (hρ _ _) (Ne.symm hr)]

end Fields

end Binary
