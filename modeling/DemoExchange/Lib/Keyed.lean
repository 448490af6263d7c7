import Mathlib.Data.List.Induction
import Mathlib.Data.List.Nodup

/-!
# Lists with one entry a key

`put` overwrites the entry with the same key where it stands, or appends;
`get` finds the entry with a key. A list that was built by `put` has every
key once, and putting the entries of such a list one by one builds it again.
-/

namespace Keyed
set_option autoImplicit false

variable {ρ κ : Type} [DecidableEq κ] {key : ρ → κ}

/-- Overwrite the entry with the key of `r` where it stands, or append `r`. -/
def put (key : ρ → κ) (r : ρ) : List ρ → List ρ
  | [] => [r]
  | x :: l => if key x = key r then r :: l else x :: put key r l

/-- The first entry with the key `k`. -/
def get (key : ρ → κ) (k : κ) (l : List ρ) : Option ρ := l.find? fun x => key x = k

variable {r x : ρ} {k : κ} {l l' : List ρ}

theorem keys_put : (put key r l).map key = if key r ∈ l.map key then l.map key else l.map key ++ [key r] := by
  induction l with
  | nil => simp [put]
  | cons x l ih =>
    by_cases same : key x = key r
    · simp [put, same]
    · have other : key r ≠ key x := Ne.symm same
      rw [put, if_neg same, List.map_cons, ih]
      simp only [List.map_cons, List.mem_cons, other, false_or]
      split <;> rfl

/-- No key twice. -/
theorem nodup_put (once : (l.map key).Nodup) : ((put key r l).map key).Nodup := by
  rw [keys_put]
  split
  · exact once
  · rename_i fresh
    exact List.nodup_append.2 ⟨once, List.nodup_singleton _, by simpa using fun x hx same => fresh (List.mem_map.2 ⟨x, hx, same⟩)⟩

theorem mem_put (member : x ∈ put key r l) : x = r ∨ x ∈ l := by
  induction l with
  | nil => exact .inl (List.mem_singleton.1 member)
  | cons y l ih =>
    rw [put] at member
    split at member
    · rcases List.mem_cons.1 member with rfl | member
      · exact .inl rfl
      · exact .inr (List.mem_cons_of_mem _ member)
    · rcases List.mem_cons.1 member with rfl | member
      · exact .inr List.mem_cons_self
      · exact (ih member).imp_right (List.mem_cons_of_mem _)

@[simp] theorem get_put_self : get key (key r) (put key r l) = some r := by
  induction l with
  | nil => simp [put, get]
  | cons x l ih =>
    rw [put]
    split
    · simp [get]
    · rename_i other
      rw [get, List.find?_cons_of_neg (by simpa using other)]
      exact ih

theorem get_put_of_ne (other : key r ≠ k) : get key k (put key r l) = get key k l := by
  induction l with
  | nil => simp [put, get, other]
  | cons x l ih =>
    rw [put]
    split
    · rename_i same
      rw [get, get, List.find?_cons_of_neg (by simpa using other), List.find?_cons_of_neg (by simpa [same] using other)]
    · rw [get, get, List.find?_cons, List.find?_cons]
      rw [get, get] at ih
      rw [ih]

/-- With every key once, an entry is found under its key. -/
theorem get_of_mem (once : (l.map key).Nodup) (member : x ∈ l) : get key (key x) l = some x := by
  induction l with
  | nil => cases member
  | cons y l ih =>
    obtain ⟨absent, once⟩ := List.nodup_cons.1 once
    rcases List.mem_cons.1 member with rfl | member
    · simp [get]
    · have other : key y ≠ key x := fun same => absent (List.mem_map.2 ⟨x, member, same.symm⟩)
      rw [get, List.find?_cons_of_neg (by simpa using other)]
      exact ih once member

/-- An entry with a key of its own goes to the end. -/
theorem put_fresh (fresh : key r ∉ l.map key) : put key r l = l ++ [r] := by
  induction l with
  | nil => rfl
  | cons x l ih =>
    rw [List.map_cons, List.mem_cons, not_or] at fresh
    rw [put, if_neg (Ne.symm fresh.1), ih fresh.2]
    rfl

theorem foldl_put_fresh (once : (l.map key).Nodup) : ∀ {l₀ : List ρ}, (∀ x ∈ l, key x ∉ l₀.map key) →
    l.foldl (fun l r => put key r l) l₀ = l₀ ++ l := by
  induction l with
  | nil => simp
  | cons r l ih =>
    intro l₀ fresh
    obtain ⟨absent, once⟩ := List.nodup_cons.1 once
    rw [List.foldl_cons, put_fresh (fresh r List.mem_cons_self), ih once, List.append_assoc]
    · rfl
    · intro x hx member
      rw [List.map_append, List.mem_append] at member
      rcases member with member | member
      · exact fresh x (List.mem_cons_of_mem _ hx) member
      · exact absent (List.mem_map.2 ⟨x, hx, by simpa using member⟩)

/-- **Putting the entries one by one** builds the list again. -/
theorem foldl_put (once : (l.map key).Nodup) : l.foldl (fun l r => put key r l) [] = l :=
  foldl_put_fresh once (by simp)

section Puts

/-- The list that putting some entries one by one builds. -/
def puts (key : ρ → κ) (l : List ρ) : List ρ := l.foldl (fun l r => put key r l) []

theorem puts_snoc : puts key (l ++ [r]) = put key r (puts key l) := by
  rw [puts, List.foldl_append]
  rfl

theorem nodup_puts (l : List ρ) : ((puts key l).map key).Nodup := by
  induction l using List.reverseRecOn with
  | nil => exact List.nodup_nil
  | append_singleton l r ih =>
    rw [puts_snoc]
    exact nodup_put ih

theorem mem_puts (member : x ∈ puts key l) : x ∈ l := by
  induction l using List.reverseRecOn with
  | nil => cases member
  | append_singleton l r ih =>
    rw [puts_snoc] at member
    rcases mem_put member with rfl | member
    · exact List.mem_append_right l List.mem_cons_self
    · exact List.mem_append_left [r] (ih member)

theorem eraseDups_snoc (keys : List κ) (k : κ) :
    (keys ++ [k]).eraseDups = if k ∈ keys then keys.eraseDups else keys.eraseDups ++ [k] := by
  rw [List.eraseDups_append, List.removeAll, List.filter_singleton, List.elem_eq_mem]
  by_cases known : k ∈ keys
  · simp [known]
  · simp [known, List.eraseDups_cons]

/-- **The keys** stand in the order in which they came first. -/
theorem keys_puts (l : List ρ) : (puts key l).map key = (l.map key).eraseDups := by
  induction l using List.reverseRecOn with
  | nil => rfl
  | append_singleton l r ih =>
    rw [puts_snoc, keys_put, ih, List.map_append, List.map_singleton, eraseDups_snoc]
    simp only [List.mem_eraseDups]

/-- **The entry of a key** is the last one that was put. -/
theorem get_puts (k : κ) (l : List ρ) : get key k (puts key l) = l.reverse.find? fun x => key x = k := by
  induction l using List.reverseRecOn with
  | nil => rfl
  | append_singleton l r ih =>
    rw [puts_snoc, List.reverse_append, List.reverse_singleton, List.singleton_append, List.find?_cons]
    by_cases same : key r = k
    · subst same
      simp
    · rw [get_put_of_ne same, ih]
      simp [same]

end Puts

end Keyed
