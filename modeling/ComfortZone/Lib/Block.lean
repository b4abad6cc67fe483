import ComfortZone.Lib.Trace
import Mathlib.Data.List.Basic
import Mathlib.Data.List.Induction
import Mathlib.Tactic.Common

/-!
# `ComfortZone.Lib.Block`: a block of memory

A block is a list of cells. `write` stores cells from an offset on, `copy` moves a range of
the block to a lower offset, and `window` reads a range. Both loops go forward, one cell
at a time, so a copy reads cells that it has written when the two ranges overlap.

* `getElem?_write` and `getElem?_copy` say what each cell holds after a loop.
* `window_write` and `window_copy` say what a range holds: a write behind a window extends
  it, and a copy to the front moves it, whether the ranges overlap or not.
* `flatten_prefix_iff` says when a sequence of ranges is the front of a block.

Nothing in this module names a particular system.
-/

set_option autoImplicit false

namespace ComfortZone.Lib.Block

variable {α : Type*}

/-- Store cells from the offset on. A cell past the end of the block is not stored. -/
def write (l : List α) (offset : Nat) : List α → List α
  | [] => l
  | a :: as => write (l.set offset a) (offset + 1) as

/-- Copy `n` cells forward, from the offset `src` on to the offset `dst` on. -/
def copy (l : List α) (src dst : Nat) : Nat → List α
  | 0 => l
  | n + 1 =>
    match l[src]? with
    | some a => copy (l.set dst a) (src + 1) (dst + 1) n
    | none => l

/-- The `n` cells from the offset on. -/
def window (l : List α) (offset n : Nat) : List α := (l.drop offset).take n

/-- A write keeps the size of the block. -/
@[simp] theorem length_write (l : List α) (offset : Nat) (as : List α) :
    (write l offset as).length = l.length := by
  induction as generalizing l offset with
  | nil => rfl
  | cons a as ih => rw [write, ih, List.length_set]

/-- A copy keeps the size of the block. -/
@[simp] theorem length_copy (l : List α) (src dst n : Nat) :
    (copy l src dst n).length = l.length := by
  induction n generalizing l src dst with
  | zero => rfl
  | succ n ih =>
    simp only [copy]
    split
    · rw [ih, List.length_set]
    · rfl

/-- A write changes the cells of its range and no other one. -/
theorem getElem?_write {l as : List α} {offset : Nat} (h : offset + as.length ≤ l.length)
    (i : Nat) :
    (write l offset as)[i]? =
      if offset ≤ i ∧ i < offset + as.length then as[i - offset]? else l[i]? := by
  induction as generalizing l offset with
  | nil =>
    rw [if_neg (by simp)]
    rfl
  | cons a as ih =>
    have hlen : offset + (as.length + 1) ≤ l.length := h
    rw [write, ih (by rw [List.length_set]; omega), List.length_cons, List.getElem?_set]
    by_cases hi : i = offset
    · -- The cell that this iteration writes.
      subst hi
      rw [if_neg (by omega), if_pos rfl, if_pos (by omega), if_pos (by omega)]
      simp
    · rw [if_neg (Ne.symm hi)]
      by_cases hrange : offset + 1 ≤ i ∧ i < offset + 1 + as.length
      · rw [if_pos hrange, if_pos (by omega), show i - offset = i - (offset + 1) + 1 by omega]
        rfl
      · rw [if_neg hrange, if_neg (by omega)]

/-- The invariant of a copy to a lower offset: the cells that are still to be read are the
original ones, because each write is behind them. -/
theorem getElem?_copy {l : List α} {src dst n : Nat} (hle : dst ≤ src)
    (h : src + n ≤ l.length) (i : Nat) :
    (copy l src dst n)[i]? =
      if dst ≤ i ∧ i < dst + n then l[src + (i - dst)]? else l[i]? := by
  induction n generalizing l src dst with
  | zero =>
    rw [if_neg (by omega)]
    rfl
  | succ n ih =>
    have hsrc : src < l.length := by omega
    rw [copy, List.getElem?_eq_getElem hsrc]
    dsimp only
    rw [ih (by omega) (by rw [List.length_set]; omega)]
    by_cases hi : i = dst
    · -- The cell that this iteration writes.
      subst hi
      rw [if_neg (by omega), if_pos (by omega), List.getElem?_set_self (by omega)]
      simp [List.getElem?_eq_getElem hsrc]
    · by_cases hrange : dst + 1 ≤ i ∧ i < dst + 1 + n
      · -- A later iteration reads a cell behind the one that this iteration writes.
        rw [if_pos hrange, if_pos (by omega), List.getElem?_set_ne (by omega),
          show src + 1 + (i - (dst + 1)) = src + (i - dst) by omega]
      · rw [if_neg hrange, if_neg (by omega), List.getElem?_set_ne (Ne.symm hi)]

/-- The cells of a window. -/
theorem getElem?_window (l : List α) (offset n i : Nat) :
    (window l offset n)[i]? = if i < n then l[offset + i]? else none := by
  simp [window, List.getElem?_take]

/-- The size of a window that fits. -/
theorem length_window {l : List α} {offset n : Nat} (h : offset + n ≤ l.length) :
    (window l offset n).length = n := by
  simp only [window, List.length_take, List.length_drop]
  omega

/-- The front of a window. -/
theorem take_window (l : List α) (offset : Nat) {k n : Nat} (h : k ≤ n) :
    (window l offset n).take k = window l offset k := by
  rw [window, List.take_take, Nat.min_eq_left h, window]

/-- A window is two windows side by side. -/
theorem window_add (l : List α) (offset m n : Nat) :
    window l offset (m + n) = window l offset m ++ window l (offset + m) n := by
  rw [window, List.take_add, List.drop_drop]
  rfl

/-- The rest of a window. -/
theorem drop_window (l : List α) (offset k n : Nat) :
    (window l offset n).drop k = window l (offset + k) (n - k) := by
  rw [window, List.drop_take, List.drop_drop, window]

/-- A write right behind a window extends it. -/
theorem window_write {l as : List α} {offset n : Nat}
    (h : offset + n + as.length ≤ l.length) :
    window (write l (offset + n) as) offset (n + as.length) = window l offset n ++ as := by
  have hn : (window l offset n).length = n := length_window (by omega)
  apply List.ext_getElem?
  intro i
  rw [getElem?_window, getElem?_write h, List.getElem?_append, hn, getElem?_window]
  by_cases hi : i < n
  · rw [if_pos (by omega), if_neg (by omega), if_pos hi, if_pos hi]
  · rw [if_neg hi]
    by_cases hlast : i < n + as.length
    · rw [if_pos hlast, if_pos (by omega), show offset + i - (offset + n) = i - n by omega]
    · rw [if_neg hlast, List.getElem?_eq_none (by omega)]

/-- A write leaves the window in front of it alone. -/
theorem window_write_front {l as : List α} {offset n : Nat}
    (h : offset + n + as.length ≤ l.length) :
    window (write l (offset + n) as) offset n = window l offset n := by
  have hn : (window l offset n).length = n := length_window (by omega)
  rw [← take_window _ _ (Nat.le_add_right n as.length), window_write h]
  exact List.take_left' hn

/-- A window holds what was written there. -/
theorem window_write_self {l as : List α} {offset : Nat} (h : offset + as.length ≤ l.length) :
    window (write l offset as) offset as.length = as := by
  have hwrite := window_write (n := 0) h
  rw [Nat.zero_add] at hwrite
  exact hwrite

/-- A copy to the front of the block moves a window there. -/
theorem window_copy {l : List α} {src n : Nat} (h : src + n ≤ l.length) :
    window (copy l src 0 n) 0 n = window l src n := by
  apply List.ext_getElem?
  intro i
  rw [getElem?_window, getElem?_window, getElem?_copy (Nat.zero_le src) h]
  by_cases hi : i < n
  · rw [if_pos hi, if_pos hi, if_pos (by omega), show src + (0 + i - 0) = src + i by omega]
  · rw [if_neg hi, if_neg hi]

/-- A range at the position that was reached goes on with the front of a block. -/
theorem append_prefix_iff {l as bs : List α} :
    as ++ bs <+: l ↔ as <+: l ∧ window l as.length bs.length = bs := by
  constructor
  · rintro ⟨rest, rfl⟩
    refine ⟨⟨bs ++ rest, by simp⟩, ?_⟩
    simp [window]
  · rintro ⟨⟨rest, rfl⟩, hwindow⟩
    rw [window, List.drop_left] at hwindow
    have hrest : bs ++ rest.drop bs.length = rest := by
      calc bs ++ rest.drop bs.length = rest.take bs.length ++ rest.drop bs.length := by rw [hwindow]
        _ = rest := List.take_append_drop _ _
    exact ⟨rest.drop bs.length, by rw [List.append_assoc, hrest]⟩

/-- A sequence of ranges is the front of a block when each one is the range at the position that
was reached. -/
theorem flatten_prefix_iff {l : List α} {chunks : List (List α)} :
    chunks.flatten <+: l ↔
      Each (fun past chunk => window l past.flatten.length chunk.length = chunk) chunks := by
  induction chunks using List.reverseRecOn with
  | nil => simp [Each.nil]
  | append_singleton chunks chunk ih =>
    rw [Each.concat_iff, ← ih, List.flatten_append, List.flatten_singleton, append_prefix_iff]

end ComfortZone.Lib.Block
