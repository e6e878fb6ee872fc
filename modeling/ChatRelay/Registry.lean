/-! Finite maps as lists of pairs, the latest first. No key occurs twice. -/

namespace ChatRelay

structure Registry (κ ν : Type) where
  entries : List (κ × ν)
  nodup : (entries.map Prod.fst).Nodup

namespace Registry

variable {κ ν : Type} [DecidableEq κ]

def empty : Registry κ ν := ⟨[], List.nodup_nil⟩

def get? (r : Registry κ ν) (key : κ) : Option ν := r.entries.lookup key

def size (r : Registry κ ν) : Nat := r.entries.length

def erase (r : Registry κ ν) (key : κ) : Registry κ ν where
  entries := r.entries.filter (·.1 ≠ key)
  nodup := r.nodup.sublist (List.filter_sublist.map _)

def insert (r : Registry κ ν) (key : κ) (value : ν) : Registry κ ν where
  entries := (key, value) :: (r.erase key).entries
  nodup := by
    refine List.nodup_cons.2 ⟨?_, (r.erase key).nodup⟩
    simp [erase]

def countP (r : Registry κ ν) (p : ν → Bool) : Nat := r.entries.countP fun e => p e.2

omit [DecidableEq κ] in
theorem ext {r s : Registry κ ν} (h : r.entries = s.entries) : r = s := by
  cases r
  cases s
  simp_all

@[simp] theorem get?_empty (key : κ) : (empty : Registry κ ν).get? key = none := rfl

theorem lookup_filter_ne (es : List (κ × ν)) (key k : κ) :
    (es.filter (·.1 ≠ key)).lookup k = if k = key then none else es.lookup k := by
  induction es with
  | nil => simp
  | cons e es ih =>
    obtain ⟨a, v⟩ := e
    by_cases ha : a = key <;> by_cases hk : k = a <;> grind

theorem get?_erase (r : Registry κ ν) (key k : κ) :
    (r.erase key).get? k = if k = key then none else r.get? k :=
  lookup_filter_ne r.entries key k

theorem get?_insert (r : Registry κ ν) (key : κ) (value : ν) (k : κ) :
    (r.insert key value).get? k = if k = key then some value else r.get? k := by
  have h := get?_erase r key k
  unfold get? at h ⊢
  by_cases hk : k = key
  · simp [insert, hk]
  · have hb : (k == key) = false := by simpa using hk
    simp [insert, List.lookup_cons, hb, h, hk]

end Registry
end ChatRelay
