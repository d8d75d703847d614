/-!
The subscriptions that already have a live receiver. Each key is held at most once, so that servers
sharing a subscription share one receive loop.
-/

namespace LogRelay

/-- The keys in use, each once. -/
structure Registry where
  keys : List String := []
  nodup : keys.Nodup := by simp

namespace Registry

def empty : Registry := {}

def isActive (r : Registry) (key : String) : Bool :=
  key ∈ r.keys

/-- Puts the key in use; the answer is whether it was not before. -/
def reserve (r : Registry) (key : String) : Bool × Registry :=
  if h : key ∈ r.keys then (false, r)
  else (true, ⟨key :: r.keys, List.nodup_cons.2 ⟨h, r.nodup⟩⟩)

/-- Forgets the key, so that it may be reserved again. -/
def release (r : Registry) (key : String) : Registry :=
  ⟨r.keys.erase key, r.nodup.erase key⟩

def size (r : Registry) : Nat := r.keys.length

def isEmpty (r : Registry) : Bool := r.keys.isEmpty

@[simp] theorem keys_empty : empty.keys = [] := rfl

theorem reserve_fst (r : Registry) (key : String) : (r.reserve key).1 = decide (key ∉ r.keys) := by
  unfold reserve
  split <;> simp_all

theorem mem_reserve {r : Registry} {key k : String} :
    k ∈ (r.reserve key).2.keys ↔ k = key ∨ k ∈ r.keys := by
  unfold reserve
  split <;> simp_all

theorem mem_release {r : Registry} {key k : String} :
    k ∈ (r.release key).keys ↔ k ≠ key ∧ k ∈ r.keys :=
  r.nodup.mem_erase_iff

end Registry

end LogRelay
