import Mathlib.Algebra.Order.Group.Multiset

/-!
# Ledgers of acquired and released resources

A ledger is the sequence in which resources were obtained and given back.  The
same resource may be obtained again after it was given back, so what is held at
a point is a multiset.  Giving back what is not held (a double release) makes
the replay fail.
-/

namespace LtramBench.Interaction

/-- One line of a ledger. -/
inductive Entry (R : Type) where
  | acquire (resource : R)
  | release (resource : R)
  deriving DecidableEq

namespace Entry

variable {R : Type} [DecidableEq R]

/-- What is held after the ledger, or `none` after a double release. -/
def replay : List (Entry R) → Multiset R → Option (Multiset R)
  | [], held => some held
  | acquire resource :: rest, held => replay rest (resource ::ₘ held)
  | release resource :: rest, held =>
      if resource ∈ held then replay rest (held.erase resource) else none

/-- Every resource of the ledger was released exactly once, after it was
acquired, and nothing else was. -/
def Settled (entries : List (Entry R)) : Prop :=
  replay entries 0 = some 0

/-- Whatever is held before the ledger is held after it, and `leaked` on top. -/
def Leaves (entries : List (Entry R)) (leaked : Multiset R) : Prop :=
  ∀ held, replay entries held = some (leaked + held)

theorem replay_append (first second : List (Entry R)) (held : Multiset R) :
    replay (first ++ second) held = (replay first held).bind (replay second) := by
  induction first generalizing held with
  | nil => rfl
  | cons entry rest ih =>
      cases entry with
      | acquire resource => exact ih _
      | release resource =>
          simp only [List.cons_append, replay]
          split
          · exact ih _
          · rfl

theorem Leaves.append {first second : List (Entry R)} {firstLeaked secondLeaked : Multiset R}
    (left : Leaves first firstLeaked) (right : Leaves second secondLeaked) :
    Leaves (first ++ second) (firstLeaked + secondLeaked) := by
  intro held
  rw [replay_append, left held, Option.bind_some, right]
  congr 1
  rw [← add_assoc, add_comm secondLeaked]

/-- A neutral ledger in front changes nothing. -/
theorem Leaves.append_of_neutral {first second : List (Entry R)} {leaked : Multiset R}
    (neutral : Leaves first 0) (right : Leaves second leaked) :
    Leaves (first ++ second) leaked := by
  rw [← zero_add leaked]
  exact neutral.append right

@[simp]
theorem leaves_nil : Leaves ([] : List (Entry R)) 0 := by
  intro held
  rw [zero_add]
  rfl

theorem leaves_acquire (resource : R) : Leaves [acquire resource] {resource} :=
  fun _ => rfl

/-- A resource held around a neutral ledger and released after it. -/
theorem leaves_acquire_release (resource : R) {entries : List (Entry R)}
    (neutral : Leaves entries 0) :
    Leaves (acquire resource :: (entries ++ [release resource])) 0 := by
  intro held
  rw [replay, replay_append, neutral, Option.bind_some]
  simp [replay]

theorem replay_acquire_all (resources : List R) (held : Multiset R) :
    replay (resources.map acquire) held = some (resources + held) := by
  induction resources generalizing held with
  | nil => exact leaves_nil held
  | cons resource rest ih =>
      rw [List.map_cons, replay, ih, ← Multiset.cons_coe, Multiset.cons_add, Multiset.add_cons]

theorem replay_release_all (resources : List R) (held : Multiset R) :
    replay (resources.map release) (resources + held) = some held := by
  induction resources with
  | nil => rw [Multiset.coe_nil, zero_add, List.map_nil, replay]
  | cons resource rest ih =>
      rw [List.map_cons, replay, ← Multiset.cons_coe, Multiset.cons_add,
        if_pos (Multiset.mem_cons_self _ _), Multiset.erase_cons_head]
      exact ih

/-- Acquiring some resources and then releasing all of them, in any order, leaves
nothing. -/
theorem leaves_acquire_all_release_perm {acquired released : List R}
    (perm : acquired.Perm released) :
    Leaves (acquired.map acquire ++ released.map release) 0 := by
  intro held
  rw [replay_append, replay_acquire_all, Option.bind_some, Multiset.coe_eq_coe.mpr perm,
    replay_release_all, zero_add]

/-- A ledger that leaves `leaked` is settled exactly when nothing leaked. -/
theorem Leaves.settled_iff {entries : List (Entry R)} {leaked : Multiset R}
    (leaves : Leaves entries leaked) : Settled entries ↔ leaked = 0 := by
  rw [Settled, leaves 0, add_zero, Option.some.injEq]

end Entry

end LtramBench.Interaction
