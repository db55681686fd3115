import Mathlib.Data.List.Induction
import Overlay.Proofs.Node.Membership
import Overlay.Proofs.Recency

/-!
# Failures in a row

A ledger counts the failures of a node until something sets them back to none: a sign of life, a
failed probe, or the failure that makes them as many as are not tolerated. The counts stand in a
bounded map, out of which the failures of other nodes may push one. So a count never exceeds the
failures since it was set back, and it is exact as long as fewer others fail after any of them than
there is room for.
-/
namespace Overlay

variable {α : Type}

namespace News

variable {news : List (News α)} {item : News α} {id : Id} {capacity : Nat}

/-- The identifiers of which news reports failures, the earliest failure first. -/
def failing (news : List (News α)) : List Id :=
  news.filterMap fun
    | .failed id => some id
    | _ => none

/-- After none of its failures have as many others failed as there is room for, before the
identifier failed again or until now. -/
def Uncrowded (capacity : Nat) (id : Id) (news : List (News α)) : Prop :=
  ∀ early between rest, news = early ++ .failed id :: (between ++ rest) → id ∉ failing between →
    (failing between).dedup.length < capacity

/-- Whose failures are reported in two parts. -/
theorem failing_append (first later : List (News α)) :
    failing (first ++ later) = failing first ++ failing later := List.filterMap_append

/-- News of a failure reports this one and no other. -/
theorem mem_failing_singleton : id ∈ failing [item] ↔ item = .failed id := by
  cases item with
  | failed other => simp [failing, eq_comm]
  | _ => simp [failing]

/-- One more failure of an identifier is one more. -/
theorem count_failing_failed (news : List (News α)) (id : Id) :
    (failing (news ++ [.failed id])).count id = (failing news).count id + 1 := by
  have single : failing [(.failed id : News α)] = [id] := rfl
  rw [failing_append, single, List.count_append, List.count_singleton_self]

/-- Other news is no failure of an identifier. -/
theorem count_failing_other (news : List (News α)) (apart : item ≠ .failed id) :
    (failing (news ++ [item])).count id = (failing news).count id := by
  have none : id ∉ failing [item] := fun named => apart (mem_failing_singleton.mp named)
  rw [failing_append, List.count_append, List.count_eq_zero.mpr none, Nat.add_zero]

/-- What is not crowded now was not so before. -/
theorem Uncrowded.of_snoc (uncrowded : Uncrowded capacity id (news ++ [item])) :
    Uncrowded capacity id news := by
  rintro early between rest rfl
  exact uncrowded early between (rest ++ [item]) (by simp)

/-- An identifier is not crowded by fewer others altogether than there is room for. -/
theorem uncrowded_of_few (others : List Id)
    (among : ∀ other ∈ failing news, other = id ∨ other ∈ others)
    (few : others.length < capacity) : Uncrowded capacity id news := by
  rintro early between rest rfl unused
  have within : (failing between).dedup ⊆ others := by
    intro other listed
    have failed := List.mem_dedup.mp listed
    have reported : other ∈ failing (early ++ .failed id :: (between ++ rest)) := by
      rw [failing_append, ← List.singleton_append, failing_append, failing_append]
      simp [failed]
    rcases among other reported with rfl | named
    · exact absurd failed unused
    · exact named
  have bound := (List.subperm_of_subset (List.nodup_dedup _) within).length_le
  omega

end News

namespace Ledger

open News (failing Uncrowded)

/-- A piece of news sets the failures of an identifier back to none: a sign of life of it, a failed
probe, or the failure that makes as many in a row as are not tolerated. -/
def Resets (l : Ledger α) (id : Id) (item : News α) : Prop :=
  (∃ c, item = .alive c ∧ c.id = id) ∨ item = .dead id ∨
    item = .failed id ∧ l.count id + 1 = l.threshold

/-- The past is nothing or ends with the last piece of news that set the failures of an identifier
back to none. -/
structure SinceReset (l : Ledger α) (id : Id) (past recent : List (News α)) : Prop where
  /-- The last news of the past, if any, set the failures back. -/
  latest : past = [] ∨
    ∃ before item, past = before ++ [item] ∧ (l.learnAll before).Resets id item
  /-- It was the last one to do so. -/
  lasting : ∀ early item late, recent = early ++ item :: late →
    ¬(l.learnAll (past ++ early)).Resets id item

/-- The failures of an identifier are all counted: there are none, or their count is kept and only
those that have failed since may have been counted more recently. -/
def Exact (l : Ledger α) (id : Id) (recent : List (News α)) : Prop :=
  (l.failures.peek? id = none ∧ id ∉ failing recent) ∨
    ∃ early between, recent = early ++ .failed id :: between ∧ id ∉ failing between ∧
      l.failures.Kept id ((failing recent).count id) (failing between)

section Learning

variable {l : Ledger α} {id : Id} {item : News α} {past recent : List (News α)} {capacity : Nat}

/-- What survives erasing and writing of counts survives news. -/
theorem failures_learn {P : Recency Nat → Prop} (kept : P l.failures)
    (erase : ∀ r key, P r → P (r.erase key)) (put : ∀ r key count, P r → P (r.put key count))
    (item : News α) : P (l.learn item).failures := by
  cases item with
  | alive c => exact erase _ c.id kept
  | failed id =>
    rw [learn]
    split
    · exact kept
    · split
      · exact put _ id _ kept
      · exact erase _ id kept
  | dead id => exact erase _ id kept
  | removed id =>
    rw [learn]
    split <;> exact kept

/-- News that sets the failures of an identifier back erases their count. -/
theorem failures_reset (foreign : id ≠ l.table.home) (resets : l.Resets id item) :
    (l.learn item).failures = l.failures.erase id := by
  rcases resets with ⟨c, rfl, rfl⟩ | rfl | ⟨rfl, often⟩
  · rfl
  · rfl
  · have many : ¬l.count id + 1 < l.threshold := by omega
    rw [learn, if_neg foreign, if_neg many]

/-- A failure that does not set the failures back is counted. -/
theorem failures_failed (foreign : id ≠ l.table.home) (few : l.count id + 1 < l.threshold) :
    (l.learn (.failed id)).failures = l.failures.put id (l.count id + 1) := by
  rw [learn, if_neg foreign, if_pos few]

/-- Other news changes the count of another identifier at most, and writes one only when that has
failed. -/
theorem failures_other (keeps : ¬l.Resets id item) (apart : item ≠ .failed id) :
    (l.learn item).failures = l.failures ∨
      (∃ other, other ≠ id ∧ (l.learn item).failures = l.failures.erase other) ∨
      ∃ other count, other ≠ id ∧ item = .failed other ∧
        (l.learn item).failures = l.failures.put other count := by
  cases item with
  | alive c => exact .inr (.inl ⟨c.id, fun same => keeps (.inl ⟨c, rfl, same⟩), rfl⟩)
  | failed other =>
    have different : other ≠ id := fun same => apart (congrArg News.failed same)
    rw [learn]
    split
    · exact .inl rfl
    · split
      · exact .inr (.inr ⟨other, _, different, rfl, rfl⟩)
      · exact .inr (.inl ⟨other, different, rfl⟩)
  | dead other =>
    have different : other ≠ id := fun same => keeps (.inr (.inl (congrArg News.dead same)))
    exact .inr (.inl ⟨other, different, rfl⟩)
  | removed other =>
    rw [learn]
    split <;> exact .inl rfl

/-- A count that an identifier has after other news it had before. -/
theorem peek?_of_other {count : Nat} (keeps : ¬l.Resets id item) (apart : item ≠ .failed id)
    (found : (l.learn item).failures.peek? id = some count) :
    l.failures.peek? id = some count := by
  rcases failures_other keeps apart with same | ⟨other, different, same⟩ |
    ⟨other, written, different, -, same⟩
  · rw [same] at found
    exact found
  · rw [same, Recency.peek?_erase_of_ne different] at found
    exact found
  · rw [same] at found
    exact Recency.peek?_of_put different found

/-- The count is the number of failures if these are all counted. -/
theorem Exact.count_eq (exact : l.Exact id recent) :
    l.count id = (failing recent).count id := by
  rcases exact with ⟨absent, none⟩ | ⟨early, between, -, unused, kept⟩
  · rw [count, absent, List.count_eq_zero.mpr none]
    rfl
  · rw [count, kept.peek?_eq unused]
    rfl

/-- A failure that does not set the failures back leaves them all counted. -/
theorem Exact.failed (exact : l.Exact id recent) (foreign : id ≠ l.table.home)
    (few : l.count id + 1 < l.threshold) :
    (l.learn (.failed id)).Exact id (recent ++ [.failed id]) := by
  refine .inr ⟨recent, [], rfl, List.not_mem_nil, ?_⟩
  rw [failures_failed foreign few, News.count_failing_failed, ← exact.count_eq]
  exact l.failures.kept_put id _

/-- Other news leaves all failures counted, as long as others do not crowd them out. -/
theorem Exact.other (exact : l.Exact id recent) (distinct : l.failures.Distinct)
    (room : capacity ≤ l.failures.capacity) (uncrowded : Uncrowded capacity id (recent ++ [item]))
    (keeps : ¬l.Resets id item) (apart : item ≠ .failed id) :
    (l.learn item).Exact id (recent ++ [item]) := by
  have unnamed : id ∉ failing [item] := fun named => apart (News.mem_failing_singleton.mp named)
  rcases exact with ⟨absent, none⟩ | ⟨early, between, rfl, unused, kept⟩
  · refine .inl ⟨Option.eq_none_iff_forall_ne_some.mpr fun count found => ?_, ?_⟩
    · have before := peek?_of_other keeps apart found
      rw [absent] at before
      cases before
    · rw [News.failing_append, List.mem_append]
      exact fun failed => failed.elim none unnamed
  · have unused' : id ∉ failing (between ++ [item]) := by
      rw [News.failing_append, List.mem_append]
      exact fun failed => failed.elim unused unnamed
    have more : failing between ⊆ failing (between ++ [item]) := by
      rw [News.failing_append]
      exact List.subset_append_left _ _
    refine .inr ⟨early, between ++ [item], by simp, unused', ?_⟩
    rw [News.count_failing_other _ apart]
    rcases failures_other keeps apart with same | ⟨other, different, same⟩ |
      ⟨other, written, different, rfl, same⟩
    · rw [same]
      exact kept.mono more
    · rw [same]
      exact (kept.erase different).mono more
    · have few := uncrowded early (between ++ [.failed other]) [] (by simp) unused'
      have named : failing (between ++ [(.failed other : News α)]) = failing between ++ [other] :=
        News.failing_append _ _
      rw [named] at few ⊢
      rw [same]
      exact kept.put distinct different written (Nat.lt_of_lt_of_le few room)

/-- News that does not set the failures back is recent news. -/
theorem SinceReset.snoc (since : l.SinceReset id past recent)
    (keeps : ¬(l.learnAll (past ++ recent)).Resets id item) :
    l.SinceReset id past (recent ++ [item]) := by
  refine ⟨since.latest, fun early next late split => ?_⟩
  rcases List.eq_nil_or_concat late with rfl | ⟨front, last, rfl⟩
  · obtain ⟨rfl, equal⟩ := List.append_inj' split rfl
    obtain rfl : item = next := by simpa using equal
    exact keeps
  · have inside : recent ++ [item] = (early ++ next :: front) ++ [last] := by
      simpa using split
    exact since.lasting early next front (List.append_inj' inside rfl).1

/-- There is no news since the failures have been set back just now. -/
theorem SinceReset.reset (resets : (l.learnAll past).Resets id item) :
    l.SinceReset id (past ++ [item]) [] := by
  refine ⟨.inr ⟨past, item, rfl, resets⟩, fun early next late split => ?_⟩
  simp at split

/-! ## Counting -/

/-- The failures of another node in recent news bound its count, which is their number as long as
fewer others than the capacity crowd in between. -/
structure Tallied (l : Ledger α) (capacity : Nat) (id : Id) (recent : List (News α)) : Prop where
  /-- The ledger is sound. -/
  sound : l.Sound
  /-- The identifier is that of another node. -/
  foreign : id ≠ l.table.home
  /-- There is one count of each identifier. -/
  distinct : l.failures.Distinct
  /-- There is room for so many of them. -/
  room : capacity ≤ l.failures.capacity
  /-- No failure is counted that there has not been. -/
  bounded : l.count id ≤ (failing recent).count id
  /-- All failures are counted, unless others crowd them out. -/
  exact : Uncrowded capacity id recent → l.Exact id recent

/-- News leaves a ledger sound, of the same home, and with one count of each identifier and as much
room for them. -/
theorem Tallied.frame (tallied : l.Tallied capacity id recent) (item : News α) :
    (l.learn item).Sound ∧ id ≠ (l.learn item).table.home ∧
      (l.learn item).failures.Distinct ∧ capacity ≤ (l.learn item).failures.capacity := by
  have home : (l.learn item).table.home = l.table.home :=
    congrArg (·.2.1) (l.frame_learn item)
  have distinct : (l.learn item).failures.Distinct :=
    failures_learn tallied.distinct (fun _ key apart => apart.erase key)
      (fun _ key count apart => apart.put key count) item
  have room : capacity ≤ (l.learn item).failures.capacity :=
    failures_learn (P := fun r => capacity ≤ r.capacity) tallied.room (fun _ _ same => same)
      (fun _ _ _ same => same) item
  refine ⟨tallied.sound.learn item, ?_, distinct, room⟩
  rw [home]
  exact tallied.foreign

/-- News that sets the failures back leaves none to count. -/
theorem Tallied.reset (tallied : l.Tallied capacity id recent) (resets : l.Resets id item) :
    (l.learn item).Tallied capacity id [] := by
  obtain ⟨sound, foreign, distinct, room⟩ := tallied.frame item
  have erased : (l.learn item).failures.peek? id = none := by
    rw [failures_reset tallied.foreign resets]
    exact tallied.distinct.peek?_erase id
  refine ⟨sound, foreign, distinct, room, ?_, fun _ => .inl ⟨erased, List.not_mem_nil⟩⟩
  rw [count, erased]
  exact Nat.zero_le _

/-- Other news, and a failure that is tolerated, leaves the failures counted as before. -/
theorem Tallied.snoc (tallied : l.Tallied capacity id recent) (keeps : ¬l.Resets id item) :
    (l.learn item).Tallied capacity id (recent ++ [item]) := by
  obtain ⟨sound, foreign, distinct, room⟩ := tallied.frame item
  have bounded := tallied.bounded
  by_cases own : item = .failed id
  · subst own
    have few : l.count id + 1 < l.threshold := by
      have below := tallied.sound.count_lt id
      have other : l.count id + 1 ≠ l.threshold := fun last => keeps (.inr (.inr ⟨rfl, last⟩))
      omega
    refine ⟨sound, foreign, distinct, room, ?_, fun uncrowded => ?_⟩
    · have counted : (l.learn (.failed id)).count id = l.count id + 1 := by
        have kept := l.failures.kept_put id (l.count id + 1)
        rw [count, failures_failed tallied.foreign few, kept.peek?_eq List.not_mem_nil]
        rfl
      rw [counted, News.count_failing_failed]
      omega
    · exact (tallied.exact uncrowded.of_snoc).failed tallied.foreign few
  · refine ⟨sound, foreign, distinct, room, ?_, fun uncrowded => ?_⟩
    · have less : (l.learn item).count id ≤ l.count id := by
        unfold count
        cases found : (l.learn item).failures.peek? id with
        | none => exact Nat.zero_le _
        | some count => rw [peek?_of_other keeps own found]
      rw [News.count_failing_other recent own]
      omega
    · exact (tallied.exact uncrowded.of_snoc).other tallied.distinct tallied.room uncrowded keeps
        own

end Learning

/-- Whatever a ledger learns, it counts no more failures of another node than there have been since
they were last set back to none, and it counts them all unless others crowd them out. -/
theorem Tallied.learnAll {l : Ledger α} {capacity : Nat} {id : Id}
    (tallied : l.Tallied capacity id []) (news : List (News α)) :
    ∃ past recent, news = past ++ recent ∧ l.SinceReset id past recent ∧
      (l.learnAll news).Tallied capacity id recent := by
  induction news using List.reverseRecOn with
  | nil =>
    refine ⟨[], [], rfl, ⟨.inl rfl, fun early next late split => ?_⟩, tallied⟩
    simp at split
  | append_singleton news item before =>
    obtain ⟨past, recent, rfl, since, tallied'⟩ := before
    have last : l.learnAll (past ++ recent ++ [item]) =
        (l.learnAll (past ++ recent)).learn item := List.foldl_append
    rw [last]
    by_cases resets : (l.learnAll (past ++ recent)).Resets id item
    · refine ⟨past ++ recent ++ [item], [], ?_, .reset resets, tallied'.reset resets⟩
      rw [List.append_nil]
    · refine ⟨past, recent ++ [item], ?_, since.snoc resets, tallied'.snoc resets⟩
      rw [List.append_assoc]

/-! ## Ledgers that count alike -/

/-- All that counting failures depends on and changes. -/
def tally (l : Ledger α) : Nat × Id × Recency Nat := (l.threshold, l.table.home, l.failures)

section Tallies

variable {l other : Ledger α} {capacity : Nat} {id : Id} {recent : List (News α)}

/-- Ledgers count alike if they have the same limits, the same home and the same counts. -/
theorem tally_eq_iff : l.tally = other.tally ↔ l.threshold = other.threshold ∧
    l.table.home = other.table.home ∧ l.failures = other.failures := by
  simp only [tally, Prod.mk.injEq]

/-- Ledgers that count alike still do so after the same news. -/
theorem tally_learn (alike : l.tally = other.tally) (item : News α) :
    (l.learn item).tally = (other.learn item).tally := by
  obtain ⟨threshold, home, failures⟩ := tally_eq_iff.mp alike
  have kept (l : Ledger α) : (l.learn item).threshold = l.threshold ∧
      (l.learn item).table.home = l.table.home :=
    ⟨congrArg (·.1) (l.frame_learn item), congrArg (·.2.1) (l.frame_learn item)⟩
  have counted : (l.learn item).failures = (other.learn item).failures := by
    cases item with
    | alive c => exact congrArg (·.erase c.id) failures
    | dead id => exact congrArg (·.erase id) failures
    | removed id =>
      simp only [learn, home]
      split <;> exact failures
    | failed id =>
      have count : l.count id = other.count id := by rw [count, failures, ← count]
      simp only [learn, home, threshold, count, failures]
      split
      · exact failures
      · split <;> rfl
  refine tally_eq_iff.mpr ⟨?_, ?_, counted⟩
  · rw [(kept l).1, (kept other).1, threshold]
  · rw [(kept l).2, (kept other).2, home]

/-- Ledgers that count alike still do so after the same news, however much there is. -/
theorem tally_learnAll (alike : l.tally = other.tally) (news : List (News α)) :
    (l.learnAll news).tally = (other.learnAll news).tally := by
  induction news generalizing l other with
  | nil => exact alike
  | cons first later further => exact further (tally_learn alike first)

/-- A ledger that counts alike has counted the same failures, if its table is sound. -/
theorem Tallied.of_tally (tallied : l.Tallied capacity id recent) (alike : other.tally = l.tally)
    (sound : other.table.Sound) : other.Tallied capacity id recent := by
  obtain ⟨threshold, home, failures⟩ := tally_eq_iff.mp alike
  have counted : other.count id = l.count id := by rw [count, failures, ← count]
  constructor
  · refine ⟨sound, ?_, ?_⟩
    · rw [threshold]
      exact tallied.sound.positive
    · rw [threshold, failures]
      exact tallied.sound.few
  · rw [home]
    exact tallied.foreign
  · rw [failures]
    exact tallied.distinct
  · rw [failures]
    exact tallied.room
  · rw [counted]
    exact tallied.bounded
  · intro uncrowded
    rw [Exact, failures]
    exact tallied.exact uncrowded

end Tallies

end Ledger

end Overlay
