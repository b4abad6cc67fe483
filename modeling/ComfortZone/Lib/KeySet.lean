import Mathlib.Data.List.Basic
import Mathlib.Order.Lattice
import Mathlib.Tactic.Common

/-!
# `ComfortZone.Lib.KeySet`: a set ordered by key

`KeySet key` is an ordered set that compares its elements by `key`, as a `std::set` of
pointers compares addresses. It is a list whose keys strictly increase, and the structure
carries that fact, so two elements of one set never share a key and iteration is in key
order. `insert` does nothing when the key is present. `find?` returns the element that
has a given key. `erase` removes by key.

The lemmas give membership after `insert` and `erase`, and the facts that a lookup by key
rests on: `find?_mem` and `find?_unique` for an element of the set, and `mem_of_find?` for
the result.
-/

set_option autoImplicit false

namespace ComfortZone.Lib

variable {α κ : Type*} [LinearOrder κ]

/-- An ordered set of `α`, compared by `key`. -/
structure KeySet (key : α → κ) where
  /-- The elements, in key order. -/
  elems : List α
  /-- The keys strictly increase. -/
  sorted : elems.Pairwise fun a b => key a < key b

namespace KeySet

variable {key : α → κ}

instance : Membership α (KeySet key) where
  mem s a := a ∈ s.elems

/-- The elements are those of the list. -/
theorem mem_iff {s : KeySet key} {a : α} : a ∈ s ↔ a ∈ s.elems := Iff.rfl

instance [DecidableEq α] (s : KeySet key) (a : α) : Decidable (a ∈ s) :=
  inferInstanceAs (Decidable (a ∈ s.elems))

/-- The empty set. -/
def empty : KeySet key := ⟨[], .nil⟩

/-- Nothing is in the empty set. -/
@[simp] theorem not_mem_empty (a : α) : a ∉ (empty : KeySet key) := by
  simp [mem_iff, empty]

/-- The number of elements. -/
def size (s : KeySet key) : Nat := s.elems.length

/-- No element is left exactly when the size is zero. -/
theorem size_eq_zero_iff {s : KeySet key} : s.size = 0 ↔ ∀ a, a ∉ s := by
  simp [size, mem_iff, List.eq_nil_iff_forall_not_mem]

/-- Ordered insertion into a list. A present key leaves the list alone. -/
def insertList (key : α → κ) (a : α) : List α → List α
  | [] => [a]
  | b :: l =>
    if key a < key b then a :: b :: l
    else if key b < key a then b :: insertList key a l
    else b :: l

/-- The elements after an ordered insertion come from the list or are the new one. -/
theorem of_mem_insertList {a c : α} {l : List α} (h : c ∈ insertList key a l) :
    c = a ∨ c ∈ l := by
  induction l with
  | nil => simpa [insertList] using h
  | cons b l ih =>
    simp only [insertList] at h
    split at h
    · simpa using h
    · split at h
      · rcases List.mem_cons.mp h with rfl | h
        · exact Or.inr (by simp)
        · exact (ih h).imp_right (List.mem_cons_of_mem b)
      · exact Or.inr h

/-- An ordered insertion keeps the keys strictly increasing. -/
theorem pairwise_insertList (a : α) {l : List α}
    (h : l.Pairwise fun a b => key a < key b) :
    (insertList key a l).Pairwise fun a b => key a < key b := by
  induction l with
  | nil => simp [insertList]
  | cons b l ih =>
    have hb : ∀ c ∈ l, key b < key c := fun c hc => List.rel_of_pairwise_cons h hc
    simp only [insertList]
    split
    · rename_i hab
      refine List.pairwise_cons.mpr ⟨fun c hc => ?_, h⟩
      rcases List.mem_cons.mp hc with rfl | hc
      · exact hab
      · exact hab.trans (hb c hc)
    · split
      · rename_i hba
        refine List.pairwise_cons.mpr ⟨fun c hc => ?_, ih h.of_cons⟩
        rcases of_mem_insertList hc with rfl | hc
        · exact hba
        · exact hb c hc
      · exact h

/-- An ordered insertion of a new key adds exactly the new element. -/
theorem mem_insertList {a c : α} {l : List α} (hnew : ∀ b ∈ l, key b ≠ key a) :
    c ∈ insertList key a l ↔ c = a ∨ c ∈ l := by
  refine ⟨of_mem_insertList, fun h => ?_⟩
  induction l with
  | nil => simpa [insertList] using h
  | cons b l ih =>
    have hb : key b ≠ key a := hnew b (by simp)
    simp only [insertList]
    split
    · simpa using h
    · split
      · rcases h with rfl | h
        · exact List.mem_cons_of_mem _ (ih (fun d hd => hnew d (by simp [hd])) (Or.inl rfl))
        · rcases List.mem_cons.mp h with rfl | h
          · exact List.mem_cons_self
          · exact List.mem_cons_of_mem _ (ih (fun d hd => hnew d (by simp [hd])) (Or.inr h))
      · rename_i h₁ h₂
        exact absurd (le_antisymm (not_lt.mp h₁) (not_lt.mp h₂)) hb

/-- Insert by key. -/
def insert (s : KeySet key) (a : α) : KeySet key :=
  ⟨insertList key a s.elems, pairwise_insertList a s.sorted⟩

/-- The element with the key `k`, if there is one. -/
def find? (s : KeySet key) (k : κ) : Option α := s.elems.find? fun a => key a = k

/-- Erase by key. -/
def erase (s : KeySet key) (a : α) : KeySet key :=
  ⟨s.elems.filter fun b => key b ≠ key a, s.sorted.filter _⟩

/-- Two elements of one set with the same key are the same element. -/
theorem key_inj {s : KeySet key} {a b : α} (ha : a ∈ s) (hb : b ∈ s)
    (h : key a = key b) : a = b := by
  have hrel : s.elems.Pairwise fun a b => key a = key b → a = b :=
    s.sorted.imp fun hlt hk => absurd hk hlt.ne
  have hflip : s.elems.Pairwise (flip fun a b => key a = key b → a = b) :=
    s.sorted.imp fun hlt hk => absurd hk hlt.ne'
  exact hrel.forall_of_forall_of_flip (fun _ _ _ => rfl) hflip ha hb h

/-- A lookup by the key of an element finds that element. -/
theorem find?_mem {s : KeySet key} {a : α} (h : a ∈ s) : s.find? (key a) = some a := by
  cases hf : s.find? (key a) with
  | none =>
    rw [find?, List.find?_eq_none] at hf
    exact absurd (hf a h) (by simp)
  | some b =>
    have hb : b ∈ s := List.mem_of_find?_eq_some hf
    have hk : key b = key a := by simpa using List.find?_some hf
    rw [key_inj hb h hk]

/-- The lookup by the key of an element returns no other element. -/
theorem find?_unique {s : KeySet key} {a b : α} (ha : a ∈ s) (h : s.find? (key a) = some b) :
    a = b :=
  Option.some.inj ((find?_mem ha).symm.trans h)

/-- The lookup by the key of an element does not fail. -/
theorem find?_ne_none {s : KeySet key} {a : α} (ha : a ∈ s) : s.find? (key a) ≠ none := by
  simp [find?_mem ha]

/-- A lookup returns an element of the set, with the key asked for. -/
theorem mem_of_find? {s : KeySet key} {k : κ} {a : α} (h : s.find? k = some a) :
    a ∈ s ∧ key a = k :=
  ⟨List.mem_of_find?_eq_some h, by simpa using List.find?_some h⟩

/-- A failed lookup means that no element has the key. -/
theorem find?_eq_none_iff {s : KeySet key} {k : κ} :
    s.find? k = none ↔ ∀ a ∈ s, key a ≠ k := by
  simp [find?, mem_iff]

/-- Membership after an insertion whose key is new. -/
theorem mem_insert {s : KeySet key} {a c : α} (hnew : s.find? (key a) = none) :
    c ∈ s.insert a ↔ c = a ∨ c ∈ s :=
  mem_insertList (find?_eq_none_iff.mp hnew)

/-- Membership after an erasure of an element of the set. -/
theorem mem_erase {s : KeySet key} {a c : α} (ha : a ∈ s) :
    c ∈ s.erase a ↔ c ∈ s ∧ c ≠ a := by
  simp only [erase, mem_iff, List.mem_filter, decide_eq_true_eq, ne_eq]
  constructor
  · rintro ⟨hc, hk⟩
    exact ⟨hc, fun h => hk (h ▸ rfl)⟩
  · rintro ⟨hc, hne⟩
    exact ⟨hc, fun hk => hne (key_inj hc ha hk)⟩

/-- Erasing twice is erasing once. -/
@[simp] theorem erase_erase (s : KeySet key) (a : α) : (s.erase a).erase a = s.erase a := by
  simp [erase]

/-- The elements of a set are pairwise different. -/
theorem nodup (s : KeySet key) : s.elems.Nodup :=
  s.sorted.imp fun h hab => absurd (hab ▸ h) (lt_irrefl _)

end KeySet

end ComfortZone.Lib
