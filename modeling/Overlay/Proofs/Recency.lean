import Mathlib.Data.List.Dedup
import Mathlib.Data.List.Perm.Subperm
import Overlay.Recency

/-!
# What a bounded map remembers

A map with room for some number of keys remembers a key for as long as fewer other keys than that
have been written since it was written last, whatever is erased in between. The keys in front of it
are always among those written since; so a newcomer pushes it out only when they fill the map.
-/
namespace Overlay

namespace Recency

variable {β : Type} {r : Recency β} {id other : Id} {value : β}

/-- The keys, most recently used first. -/
def keys (r : Recency β) : List Id := r.entries.map (·.1)

/-- No key stands twice. -/
def Distinct (r : Recency β) : Prop := r.keys.Nodup

/-- The key has this value, and the keys used more recently are among those listed. -/
def Kept (r : Recency β) (id : Id) (value : β) (since : List Id) : Prop :=
  ∃ front back, r.entries = front ++ (id, value) :: back ∧ ∀ e ∈ front, e.1 ∈ since

/-! ## Single operations -/

/-- Erasing a key erases it from the keys. -/
theorem keys_erase (r : Recency β) (id : Id) : (r.erase id).keys = r.keys.erase id := by
  have same : (fun e : Id × β => decide (e.1 = id)) = (fun key => id == key) ∘ (·.1) := by
    funext e
    rw [Function.comp_apply, Bool.eq_iff_iff, beq_iff_eq, decide_eq_true_iff, eq_comm]
  rw [keys, keys, erase, List.erase_eq_eraseP, List.eraseP_map, same]

/-- Writing a key puts it in front of as many others as there is room for besides. -/
theorem keys_put (r : Recency β) (id : Id) (value : β) :
    (r.put id value).keys = id :: (r.keys.erase id).take (r.capacity - 1) := by
  rw [← keys_erase]
  exact congrArg (id :: ·) List.map_take

/-- An erased key is not stored. -/
theorem Distinct.not_mem_erase (distinct : r.Distinct) (id : Id) : id ∉ r.keys.erase id :=
  fun left => ((List.Nodup.mem_erase_iff distinct).mp left).1 rfl

/-- Erasing keeps the keys apart. -/
theorem Distinct.erase (distinct : r.Distinct) (id : Id) : (r.erase id).Distinct := by
  rw [Distinct, keys_erase]
  exact List.Nodup.erase id distinct

/-- Writing keeps the keys apart. -/
theorem Distinct.put (distinct : r.Distinct) (id : Id) (value : β) :
    (r.put id value).Distinct := by
  have apart := distinct.not_mem_erase id
  have left : (r.keys.erase id).Nodup := List.Nodup.erase id distinct
  rw [Distinct, keys_put]
  apply List.nodup_cons.mpr
  exact ⟨fun stays => apart ((List.take_subset _ _) stays), left.sublist (List.take_sublist _ _)⟩

/-- A key has no value exactly when it is not stored. -/
theorem peek?_eq_none_iff : r.peek? id = none ↔ id ∉ r.keys := by
  rw [peek?, Option.map_eq_none_iff, List.find?_eq_none, keys, List.mem_map]
  simp only [decide_eq_true_iff, not_exists, not_and]

/-- An erased key has no value. -/
theorem Distinct.peek?_erase (distinct : r.Distinct) (id : Id) :
    (r.erase id).peek? id = none := by
  rw [peek?_eq_none_iff, keys_erase]
  exact distinct.not_mem_erase id

/-- Erasing another key leaves the value of a key as it is. -/
theorem peek?_erase_of_ne (apart : other ≠ id) : (r.erase other).peek? id = r.peek? id := by
  unfold peek? erase
  congr 1
  rcases List.exists_or_eq_self_of_eraseP (fun e : Id × β => decide (e.1 = other)) r.entries with
    same | ⟨e, front, back, -, named, split, erased⟩
  · rw [same]
  · have miss : ¬decide (e.1 = id) = true := by
      rw [decide_eq_true_iff] at named ⊢
      rw [named]
      exact apart
    have passed : (e :: back).find? (fun e => decide (e.1 = id)) =
        back.find? fun e => decide (e.1 = id) := List.find?_cons_of_neg miss
    rw [erased, split, List.find?_append, List.find?_append, passed]

/-- A key that has a value after another one was written had it before. -/
theorem peek?_of_put (apart : other ≠ id) {written : β}
    (found : (r.put other written).peek? id = some value) : r.peek? id = some value := by
  have miss : ¬decide ((other, written).1 = id) = true := by simpa using apart
  have passed : (r.put other written).entries.find? (fun e => decide (e.1 = id)) =
      ((r.erase other).entries.take (r.capacity - 1)).find? fun e => decide (e.1 = id) :=
    List.find?_cons_of_neg miss
  rw [← peek?_erase_of_ne (r := r) apart]
  rw [peek?, Option.map_eq_some_iff] at found ⊢
  obtain ⟨e, hit, same⟩ := found
  rw [passed] at hit
  refine ⟨e, ?_, same⟩
  rw [← List.take_append_drop (r.capacity - 1) (r.erase other).entries, List.find?_append, hit]
  rfl

/-! ## Keys that are kept -/

/-- A key that is kept has its value, unless it has been used since. -/
theorem Kept.peek?_eq {since : List Id} (kept : r.Kept id value since) (unused : id ∉ since) :
    r.peek? id = some value := by
  obtain ⟨front, back, split, among⟩ := kept
  have ahead : front.find? (fun e => decide (e.1 = id)) = none := by
    rw [List.find?_eq_none]
    intro e member hit
    rw [decide_eq_true_iff] at hit
    have used := among e member
    rw [hit] at used
    exact unused used
  rw [peek?, split, List.find?_append, ahead]
  simp

/-- A key is kept while more keys are used. -/
theorem Kept.mono {since more : List Id} (kept : r.Kept id value since) (within : since ⊆ more) :
    r.Kept id value more := by
  obtain ⟨front, back, split, among⟩ := kept
  exact ⟨front, back, split, fun e member => within (among e member)⟩

/-- A key that is written is kept in front of all others. -/
theorem kept_put (r : Recency β) (id : Id) (value : β) : (r.put id value).Kept id value [] :=
  ⟨[], _, rfl, nofun⟩

/-- A key is kept while others are erased. -/
theorem Kept.erase {since : List Id} (kept : r.Kept id value since) (apart : other ≠ id) :
    (r.erase other).Kept id value since := by
  obtain ⟨front, back, split, among⟩ := kept
  have miss : ¬decide ((id, value).1 = other) = true := by simpa using apart.symm
  have entries : (r.erase other).entries =
      (front ++ (id, value) :: back).eraseP fun e => decide (e.1 = other) := by
    rw [Recency.erase, split]
  by_cases stored : ∃ e ∈ front, decide (e.1 = other) = true
  · obtain ⟨e, member, hit⟩ := stored
    refine ⟨front.eraseP fun e => decide (e.1 = other), back, ?_, fun e left => ?_⟩
    · rw [entries]
      exact List.eraseP_append_left (p := fun e => decide (e.1 = other)) hit _ member
    · exact among e (List.eraseP_subset left)
  · refine ⟨front, back.eraseP fun e => decide (e.1 = other), ?_, among⟩
    have none : ∀ e ∈ front, ¬decide (e.1 = other) = true :=
      fun e member hit => stored ⟨e, member, hit⟩
    have passed : ((id, value) :: back).eraseP (fun e => decide (e.1 = other)) =
        (id, value) :: back.eraseP fun e => decide (e.1 = other) := List.eraseP_cons_of_neg miss
    rw [entries, List.eraseP_append_right _ none, passed]

/-- A key is kept when another one is written, as long as fewer keys than there is room for have
been used since it was. -/
theorem Kept.put {since : List Id} (kept : r.Kept id value since) (distinct : r.Distinct)
    (apart : other ≠ id) (written : β) (few : (since ++ [other]).dedup.length < r.capacity) :
    (r.put other written).Kept id value (since ++ [other]) := by
  obtain ⟨front, back, split, among⟩ := kept.erase apart
  have left := distinct.erase other
  have gone : other ∉ front.map (·.1) := by
    have absent := distinct.not_mem_erase other
    rw [← keys_erase, keys, split, List.map_append, List.mem_append] at absent
    exact fun stays => absent (.inl stays)
  -- The keys in front are distinct and have all been used since.
  have bound : front.length + 1 ≤ (since ++ [other]).dedup.length := by
    have nodup : (other :: front.map (·.1)).Nodup := by
      rw [Distinct, keys, split, List.map_append] at left
      exact List.nodup_cons.mpr ⟨gone, left.of_append_left⟩
    have within : other :: front.map (·.1) ⊆ (since ++ [other]).dedup := by
      intro key ahead
      rw [List.mem_dedup, List.mem_append, List.mem_singleton]
      rcases List.mem_cons.mp ahead with first | rest
      · exact .inr first
      · obtain ⟨e, member, rfl⟩ := List.mem_map.mp rest
        exact .inl (among e member)
    simpa using (List.subperm_of_subset nodup within).length_le
  have room : front.length < r.capacity - 1 := by omega
  refine ⟨(other, written) :: front, back.take (r.capacity - 1 - (front.length + 1)), ?_, ?_⟩
  · have entries : (r.put other written).entries =
        (other, written) :: (front ++ (id, value) :: back).take (r.capacity - 1) := by
      rw [Recency.put, split]
    rw [entries, List.take_append, List.take_of_length_le (Nat.le_of_lt room)]
    have cut : r.capacity - 1 - front.length = r.capacity - 1 - (front.length + 1) + 1 := by omega
    rw [cut, List.take_succ_cons]
    rfl
  · intro e ahead
    rcases List.mem_cons.mp ahead with rfl | member
    · exact List.mem_append_right _ (List.mem_singleton.mpr rfl)
    · exact List.mem_append_left _ (among e member)

/-! ## Sweeping -/

/-- Sweeping leaves the most recent entries as they are. -/
theorem sweep_front (r : Recency β) (expired : β → Bool) :
    (r.sweep expired).entries <+: r.entries := by
  have left : r.entries.reverse.dropWhile (fun e => expired e.2) <:+ r.entries.reverse :=
    List.dropWhile_suffix _
  rw [sweep, ← List.reverse_suffix, List.reverse_reverse]
  exact left

/-- Sweeping keeps the keys apart. -/
theorem Distinct.sweep (distinct : r.Distinct) (expired : β → Bool) :
    (r.sweep expired).Distinct := by
  have keys : (r.sweep expired).keys.Sublist r.keys :=
    List.Sublist.map (fun e : Id × β => e.1) (sweep_front r expired).sublist
  exact List.Nodup.sublist keys distinct

/-- A key is kept when the map is swept, as long as its own value has not expired. -/
theorem Kept.sweep {since : List Id} {expired : β → Bool} (kept : r.Kept id value since)
    (fresh : expired value = false) : (r.sweep expired).Kept id value since := by
  obtain ⟨front, back, split, among⟩ := kept
  have stops : ((id, value) :: front.reverse).dropWhile (fun e => expired e.2) =
      (id, value) :: front.reverse := List.dropWhile_cons_of_neg (by simp [fresh])
  refine ⟨front, (back.reverse.dropWhile fun e => expired e.2).reverse, ?_, among⟩
  rw [Recency.sweep, split, List.reverse_append, List.reverse_cons, List.append_assoc,
    List.dropWhile_append]
  -- The entry itself ends the sweep, whether or not the sweep takes all entries behind it.
  split
  next all =>
    rw [List.isEmpty_iff] at all
    rw [all, List.singleton_append, stops]
    simp
  next => simp

/-- When the values expire in order, a swept map holds no expired value. -/
theorem sweep_fresh {expired : β → Bool}
    (sorted : r.entries.Pairwise fun later earlier => expired later.2 → expired earlier.2)
    {e : Id × β} (left : e ∈ (r.sweep expired).entries) : expired e.2 = false := by
  have order : (r.entries.reverse.dropWhile fun e => expired e.2).Pairwise
      fun earlier later => expired later.2 → expired earlier.2 :=
    (List.pairwise_reverse.mpr sorted).sublist (List.dropWhile_sublist _)
  rw [sweep, List.mem_reverse] at left
  cases rest : r.entries.reverse.dropWhile (fun e => expired e.2) with
  | nil => rw [rest] at left; exact absurd left List.not_mem_nil
  | cons oldest younger =>
    have first : expired oldest.2 = false := by
      have head := List.head_dropWhile_not (fun e : Id × β => expired e.2)
        (l := r.entries.reverse) (by rw [rest]; exact List.cons_ne_nil _ _)
      simpa only [rest, List.head_cons] using head
    rw [rest] at left order
    rcases List.mem_cons.mp left with rfl | member
    · exact first
    · have spreads := (List.pairwise_cons.mp order).1 e member
      rw [Bool.eq_false_iff]
      intro old
      rw [spreads old] at first
      exact Bool.noConfusion first

end Recency

end Overlay
