import Lctools.Foundation.Cells

/-! # Binary heaps in integer-indexed cells

Node `i` has the children `2 * i + 1` and `2 * i + 2`, and no key exceeds the
key of its parent. Sifting a value down moves a hole from a node to one of its
children until the value fits; `Sinking` is the order that holds on the way.
-/

namespace Lctools.BinaryHeap

open Cells

variable {α κ : Type} [LinearOrder κ] {key : α → κ}

/-- `child` is one of the two children of `node`. -/
def Child (node child : ℤ) : Prop := child = 2 * node + 1 ∨ child = 2 * node + 2

theorem Child.lt {node child : ℤ} (isChild : Child node child) (nonneg : 0 ≤ node) :
    node < child := by
  unfold Child at isChild
  omega

theorem Child.parent_unique {first second child : ℤ} (ofFirst : Child first child)
    (ofSecond : Child second child) : first = second := by
  unfold Child at ofFirst ofSecond
  omega

variable (key) in
/-- The nodes from `start` on are not smaller than their children below `len`. -/
def HeapFrom (start len : ℤ) (cells : ℤ → α) : Prop :=
  ∀ node child, start ≤ node → Child node child → child < len →
    key (cells child) ≤ key (cells node)

theorem HeapFrom.le_root {len : ℤ} {cells : ℤ → α} (heap : HeapFrom key 0 len cells)
    (index : ℕ) (inside : (index : ℤ) < len) : key (cells index) ≤ key (cells 0) := by
  induction index using Nat.strong_induction_on with
  | _ index below =>
      by_cases atRoot : index = 0
      · rw [atRoot]
        exact le_refl _
      · have isChild : Child (((index - 1) / 2 : ℕ) : ℤ) index := by
          unfold Child
          omega
        have step := heap _ _ (by omega) isChild inside
        exact step.trans (below ((index - 1) / 2) (by omega) (by omega))

theorem HeapFrom.swap_root {top : ℤ} {cells : ℤ → α}
    (heap : HeapFrom key 0 (top + 1) cells) :
    HeapFrom key 1 top (cells ∘ Equiv.swap 0 top) := by
  intro node child above isChild inside
  have below := isChild.lt (by omega)
  have kept : ∀ index : ℤ, 0 < index → index < top →
      (cells ∘ Equiv.swap 0 top) index = cells index := by
    intro index positive notTop
    rw [Function.comp_apply, Equiv.swap_apply_of_ne_of_ne (by omega) (by omega)]
  rw [kept node (by omega) (by omega), kept child (by omega) inside]
  exact heap node child (by omega) isChild (by omega)

variable (key) in
/-- A heap from `start` on with a hole into which `value` is to go: the pairs
that do not touch the hole are in order, and the parent of the hole bounds both
the value and the children of the hole. -/
structure Sinking (start len : ℤ) (cells : ℤ → α) (hole : ℤ) (value : α) : Prop where
  ordered : ∀ node child, start ≤ node → Child node child → child < len →
    node ≠ hole → child ≠ hole → key (cells child) ≤ key (cells node)
  bounded : ∀ node, start ≤ node → Child node hole → key value ≤ key (cells node)
  skipped : ∀ node child, start ≤ node → Child node hole → Child hole child → child < len →
    key (cells child) ≤ key (cells node)

namespace Sinking

variable {start len hole next : ℤ} {cells : ℤ → α} {value : α}

theorem of_heap (nonneg : 0 ≤ hole) (heap : HeapFrom key (hole + 1) len cells) (value : α) :
    Sinking key hole len cells hole value := by
  -- A parent of the hole would have to lie below it.
  have noParent : ∀ node, hole ≤ node → ¬Child node hole := by
    intro node above isChild
    have below := isChild.lt (by omega)
    omega
  constructor
  · intro node child above isChild inside notHole _
    exact heap node child (by omega) isChild inside
  · intro node above isChild
    exact absurd isChild (noParent node above)
  · intro node child above isChild
    exact absurd isChild (noParent node above)

theorem move (sinking : Sinking key start len cells hole value) (nonneg : 0 ≤ start)
    (startLe : start ≤ hole) (isChild : Child hole next) (inside : next < len)
    (largest : ∀ child, Child hole child → child < len → key (cells child) ≤ key (cells next))
    (larger : key value < key (cells next)) :
    Sinking key start len (Function.update cells hole (cells next)) next value := by
  have below := isChild.lt (by omega)
  constructor
  · intro node child above related childInside notNext childNotNext
    by_cases childAtHole : child = hole
    · subst childAtHole
      have apart := related.lt (by omega)
      rw [Function.update_self, Function.update_of_ne (by omega)]
      exact sinking.skipped node next above related isChild inside
    · rw [Function.update_of_ne childAtHole]
      by_cases nodeAtHole : node = hole
      · subst nodeAtHole
        rw [Function.update_self]
        exact largest child related childInside
      · rw [Function.update_of_ne nodeAtHole]
        exact sinking.ordered node child above related childInside nodeAtHole childAtHole
  · intro node above related
    rw [related.parent_unique isChild, Function.update_self]
    exact larger.le
  · intro node child above related grandchild childInside
    have deeper := grandchild.lt (by omega)
    rw [related.parent_unique isChild, Function.update_self, Function.update_of_ne (by omega)]
    exact sinking.ordered next child (by omega) grandchild childInside (by omega) (by omega)

theorem fill (sinking : Sinking key start len cells hole value) (nonneg : 0 ≤ start)
    (fits : ∀ child, Child hole child → child < len → key (cells child) ≤ key value) :
    HeapFrom key start len (Function.update cells hole value) := by
  intro node child above isChild inside
  have below := isChild.lt (by omega)
  by_cases childAtHole : child = hole
  · subst childAtHole
    rw [Function.update_self, Function.update_of_ne (by omega)]
    exact sinking.bounded node above isChild
  · rw [Function.update_of_ne childAtHole]
    by_cases nodeAtHole : node = hole
    · subst nodeAtHole
      rw [Function.update_self]
      exact fits child isChild inside
    · rw [Function.update_of_ne nodeAtHole]
      exact sinking.ordered node child above isChild inside nodeAtHole childAtHole

end Sinking

end Lctools.BinaryHeap
