import Mathlib.Data.List.Chain
import Mathlib.Data.List.Induction
import Overlay.Proofs.Offers

/-!
# What the readers of a table learn

A table and its readers are followed through everything that can happen to them: contacts are
offered and withdrawn, readers subscribe and drain what has been announced to them. A contact is
announced exactly when an offer stores it, with or without a division. So a reader drains the
contacts stored since it drained last, or the latest of them when they are more than are kept, and
it is told how many it has lost. For every identifier, storing and removing take turns.
-/
namespace Overlay

namespace Feed

variable {α : Type}

/-- The feed on which these values have been announced. -/
def of (all : List α) : Feed α := ⟨all.length, all.drop (all.length - capacity)⟩

/-- What a reader gets that has not seen any of these announcements: the latest ones that are kept,
and how many there were before. -/
def digest (unread : List α) : Batch α :=
  ⟨unread.length - capacity, unread.drop (unread.length - capacity)⟩

/-- Nothing has been announced on an empty feed. -/
theorem of_nil : of ([] : List α) = empty := by
  rw [of, List.drop_nil]
  rfl

/-- The latest values once one more has come are the latest of those that were the latest before. -/
theorem latest_concat {room : Nat} (some : 0 < room) (all : List α) (value : α) :
    (all.drop (all.length - room) ++ [value]).drop
        ((all.drop (all.length - room) ++ [value]).length - room) =
      (all ++ [value]).drop ((all ++ [value]).length - room) := by
  have shift : all.length - room + (all.length - (all.length - room) + 1 - room) =
      all.length + 1 - room := by omega
  simp only [List.length_append, List.length_drop, List.length_singleton]
  rw [List.drop_append_of_le_length (by rw [List.length_drop]; omega), List.drop_drop, shift,
    List.drop_append_of_le_length (by omega)]

/-- Of the latest values, those a reader has not seen are the latest of what it has not seen. -/
theorem latest_unread (room : Nat) (seen unread : List α) :
    ((seen ++ unread).drop ((seen ++ unread).length - room)).drop
        (((seen ++ unread).drop ((seen ++ unread).length - room)).length - unread.length) =
      unread.drop (unread.length - room) := by
  simp only [List.drop_drop, List.length_drop, List.length_append]
  have shift : seen.length + unread.length - room + (seen.length + unread.length -
      (seen.length + unread.length - room) - unread.length) - seen.length =
        unread.length - room := by omega
  rw [List.drop_append, List.drop_of_length_le (by omega), List.nil_append, shift]

/-- Announcing a value appends it to the announcements. -/
theorem push_of (all : List α) (value : α) : (of all).push value = of (all ++ [value]) := by
  have some : 0 < capacity := Nat.zero_lt_succ 255
  simp only [push, of, mk.injEq]
  exact ⟨by rw [List.length_append, List.length_singleton], latest_concat some all value⟩

/-- A reader that has seen some announcements gets a digest of the others. -/
theorem since_of (seen unread : List α) :
    (of (seen ++ unread)).since seen.length = digest unread := by
  have pending : (seen ++ unread).length - seen.length = unread.length := by
    rw [List.length_append, Nat.add_sub_cancel_left]
  have lost (room : Nat) : unread.length - ((seen ++ unread).length -
      ((seen ++ unread).length - room)) = unread.length - room := by
    rw [List.length_append]
    omega
  simp only [since, digest, of, pending, Batch.mk.injEq]
  exact ⟨by rw [List.length_drop, lost], latest_unread capacity seen unread⟩

end Feed

namespace Table

variable {α : Type} {t : Table α}

/-! ## What a change announces -/

/-- An offer that stores a contact announces it and adds its identifier, which was not stored; any
other offer announces nothing and leaves the identifiers as they are. -/
theorem Sound.add_announces (sound : t.Sound) (c : Contact α) :
    ((t.add c).1.outcome = .added ∧ (t.add c).2.feed = t.feed.push c ∧
        t.contains c.id = false ∧
        ∀ id, (t.add c).2.contains id = true ↔ t.contains id = true ∨ c.id = id) ∨
      ((t.add c).1.outcome ≠ .added ∧ (t.add c).2.feed = t.feed ∧
        ∀ id, (t.add c).2.contains id = true ↔ t.contains id = true) := by
  have contains := sound.contains_add_iff c
  rcases sound.offer_cases c with ⟨stored, offered⟩ | ⟨absent, -, offered⟩ |
    ⟨-, -, -, offered⟩ | ⟨absent, -, -, offered⟩
  · refine .inr ⟨by simp [offered], by rw [offered]; rfl, fun id => ?_⟩
    rw [contains id]
    refine or_iff_left_of_imp ?_
    rintro ⟨-, rfl⟩
    exact stored
  · refine .inl ⟨by rw [offered], by rw [offered], absent, fun id => ?_⟩
    rw [contains id]
    simp [offered]
  · exact .inr ⟨by simp [offered], by rw [offered], fun id => by rw [offered]⟩
  · refine .inl ⟨by rw [offered], by rw [offered], absent, fun id => ?_⟩
    rw [contains id]
    simp [offered]

/-- A removal announces nothing, and it succeeds when the identifier is stored. -/
theorem remove_announces (t : Table α) (id : Id) :
    (t.remove id).2.feed = t.feed ∧ (t.remove id).1 = t.contains id := by
  rcases t.remove_cases id with ⟨stored, removed⟩ | ⟨absent, removed⟩
  · rw [removed]
    exact ⟨rfl, stored.symm⟩
  · rw [removed]
    exact ⟨rfl, absent.symm⟩

end Table

/-! ## Tables with readers -/

/-- A table, and how far each of its readers has read. -/
structure Audience (α : Type) where
  /-- The table. -/
  table : Table α
  /-- The positions of the readers on its feed, in the order of their subscriptions. -/
  readers : List Nat

namespace Audience

variable {α : Type}

/-- What can happen to a table and its readers. -/
inductive Move (α : Type) where
  /-- A contact is offered or withdrawn. -/
  | change (change : Table.Change α)
  /-- One more reader subscribes. -/
  | subscribe
  /-- A reader drains what has been announced to it. -/
  | drain (reader : Nat)

/-- What is seen of it. -/
inductive Event (α : Type) where
  /-- A contact was offered, with this outcome. -/
  | offered (c : Contact α) (outcome : Outcome)
  /-- An identifier was withdrawn, which may have been stored. -/
  | removed (id : Id) (stored : Bool)
  /-- A reader subscribed. -/
  | subscribed (reader : Nat)
  /-- A reader drained these announcements. -/
  | drained (reader : Nat) (batch : Feed.Batch (Contact α))

/-- What is seen of a move, and what it leaves. -/
def move (a : Audience α) : Move α → List (Event α) × Audience α
  | .change (.offer c) =>
    ([.offered c (a.table.add c).1.outcome], { a with table := (a.table.add c).2 })
  | .change (.withdraw id) =>
    ([.removed id (a.table.remove id).1], { a with table := (a.table.remove id).2 })
  | .subscribe =>
    ([.subscribed a.readers.length], { a with readers := a.readers ++ [a.table.subscribe] })
  | .drain reader =>
    match a.readers[reader]? with
    | none => ([], a)
    | some position =>
      ([.drained reader (a.table.feed.since position)],
        { a with readers := a.readers.set reader a.table.feed.total })

/-- A reader that has subscribed drains what follows its position. -/
theorem move_drain {a : Audience α} {reader position : Nat}
    (stands : a.readers[reader]? = some position) : a.move (.drain reader) =
      ([.drained reader (a.table.feed.since position)],
        { a with readers := a.readers.set reader a.table.feed.total }) := by
  rw [move]
  simp only [stands]

/-- What is seen of some moves, and what they leave. -/
def play (a : Audience α) (moves : List (Move α)) : List (Event α) × Audience α :=
  moves.foldl (fun (events, a) m => (events ++ (a.move m).1, (a.move m).2)) ([], a)

/-- The contacts stored, in order. -/
def stored (events : List (Event α)) : List (Contact α) :=
  events.filterMap fun
    | .offered c .added => some c
    | _ => none

/-- What became of an identifier, in order: stored or removed. -/
def turns (id : Id) (events : List (Event α)) : List Bool :=
  events.filterMap fun
    | .offered c .added => if c.id = id then some true else none
    | .removed gone true => if gone = id then some false else none
    | _ => none

/-- The event is where a reader starts to read: its subscription or a drain. -/
def Event.starts (reader : Nat) : Event α → Prop
  | .subscribed other => other = reader
  | .drained other _ => other = reader
  | _ => False

/-- What has been seen falls into what a reader has read of and what it has not: it drained last, or
subscribed, right in between. -/
structure Unread (reader : Nat) (seen unread : List (Event α)) : Prop where
  /-- The last of the events it has read of is where it starts to read. -/
  starts : ∃ mark ∈ seen.getLast?, mark.starts reader
  /-- It has not started again since. -/
  waits : ∀ e ∈ unread, ¬e.starts reader

section Events

variable (events more : List (Event α))

/-- Contacts stored over two stretches of events. -/
theorem stored_append : stored (events ++ more) = stored events ++ stored more :=
  List.filterMap_append

/-- What became of an identifier over two stretches of events. -/
theorem turns_append (id : Id) : turns id (events ++ more) = turns id events ++ turns id more :=
  List.filterMap_append

/-- One more move is made last. -/
theorem play_append (a : Audience α) (moves : List (Move α)) (m : Move α) :
    a.play (moves ++ [m]) =
      ((a.play moves).1 ++ ((a.play moves).2.move m).1, ((a.play moves).2.move m).2) :=
  List.foldl_append

/-- A reader that starts to read has no events left. -/
theorem unread_nil {e : Event α} {reader : Nat} (starts : e.starts reader) :
    Unread reader (events ++ [e]) [] where
  starts := ⟨e, by simp, starts⟩
  waits := nofun

variable {events more}

/-- A reader that does not start again has one more event left. -/
theorem Unread.concat {reader : Nat} {e : Event α} (unread : Unread reader events more)
    (waits : ¬e.starts reader) : Unread reader events (more ++ [e]) where
  starts := unread.starts
  waits := by
    intro other among
    rcases List.mem_append.mp among with earlier | last
    · exact unread.waits other earlier
    · rw [List.mem_singleton.mp last]
      exact waits

end Events

/-! ## What holds of every run -/

/-- What holds of a table with readers after some events. -/
structure Attended (a : Audience α) (events : List (Event α)) : Prop where
  /-- The table is sound. -/
  sound : a.table.Sound
  /-- What has been stored has been announced. -/
  feed : a.table.feed = .of (stored events)
  /-- Whoever has subscribed is a reader. -/
  listed : ∀ reader, .subscribed reader ∈ events → reader < a.readers.length
  /-- Every reader stands behind what had been stored when it started to read. -/
  reading : ∀ reader position, a.readers[reader]? = some position → ∃ seen unread,
    events = seen ++ unread ∧ Unread reader seen unread ∧ position = (stored seen).length
  /-- Storing and removing an identifier take turns. -/
  turning : ∀ id, (false :: turns id events).IsChain (· ≠ ·)
  /-- An identifier is held when it was stored last. -/
  holding : ∀ id, a.table.contains id = (turns id events).getLastD false

/-- Turns go on with the one that is due. -/
theorem turning_concat {earlier : List Bool} {turn : Bool}
    (turning : (false :: earlier).IsChain (· ≠ ·)) (due : earlier.getLastD false ≠ turn) :
    (false :: (earlier ++ [turn])).IsChain (· ≠ ·) := by
  rw [← List.cons_append, List.isChain_append]
  refine ⟨turning, List.isChain_singleton turn, ?_⟩
  rintro last before next ⟨⟩
  rw [List.getLast?_cons, Option.mem_some_iff] at before
  rw [← before, ← List.getLastD_eq_getLast?]
  exact due

namespace Attended

variable {a : Audience α} {events : List (Event α)}

/-- Nothing has been stored in a new table, and nobody reads. -/
theorem start (home : Id) (capacity maxDepth : Nat) :
    Attended ⟨.withDepth home capacity maxDepth, []⟩ ([] : List (Event α)) where
  sound := Table.withDepth_sound home capacity maxDepth
  feed := Feed.of_nil.symm
  listed := nofun
  reading := nofun
  turning := fun _ => List.isChain_singleton false
  holding := fun _ => rfl

/-- What holds is kept when the table changes, if what is announced is what was stored, and each
identifier is left alone or has the turn that is due. -/
theorem change (attended : Attended a events) {t : Table α} {e : Event α} (sound : t.Sound)
    (announced : t.feed = .of (stored (events ++ [e]))) (waits : ∀ reader, ¬e.starts reader)
    (turn : ∀ id, (turns id [e] = [] ∧ t.contains id = a.table.contains id) ∨
      (turns id [e] = [t.contains id] ∧ t.contains id ≠ a.table.contains id)) :
    Attended { a with table := t } (events ++ [e]) where
  sound := sound
  feed := announced
  listed := by
    intro reader subscribed
    rcases List.mem_append.mp subscribed with earlier | last
    · exact attended.listed reader earlier
    · rw [← List.mem_singleton.mp last] at waits
      exact absurd rfl (waits reader)
  reading := by
    intro reader position stands
    obtain ⟨seen, unread, rfl, behind, read⟩ := attended.reading reader position stands
    exact ⟨seen, unread ++ [e], List.append_assoc .., behind.concat (waits reader), read⟩
  turning := by
    intro id
    rw [turns_append]
    rcases turn id with ⟨none, -⟩ | ⟨one, differs⟩
    · rw [none, List.append_nil]
      exact attended.turning id
    · rw [one]
      refine turning_concat (attended.turning id) ?_
      rw [← attended.holding id]
      exact differs.symm
  holding := by
    intro id
    rw [turns_append]
    rcases turn id with ⟨none, same⟩ | ⟨one, -⟩
    · rw [none, List.append_nil, same]
      exact attended.holding id
    · rw [one, List.getLastD_concat]

/-- What holds is kept when a contact is offered. -/
theorem offer (attended : Attended a events) (c : Contact α) :
    Attended (a.move (.change (.offer c))).2
      (events ++ (a.move (.change (.offer c))).1) := by
  have sound := attended.sound.add c
  have waits (outcome : Outcome) (reader : Nat) : ¬(Event.offered c outcome).starts reader := id
  rcases attended.sound.add_announces c with ⟨added, announced, absent, holds⟩ |
    ⟨refused, announced, holds⟩
  · refine attended.change sound ?_ (waits _) fun id => ?_
    · rw [announced, attended.feed, Feed.push_of, stored_append, added]
      rfl
    · by_cases same : c.id = id
      · have stored : (a.table.add c).2.contains id = true := (holds id).mpr (.inr same)
        refine .inr ⟨by simp [turns, added, same, stored], ?_⟩
        rw [stored, ← same, absent]
        exact Bool.noConfusion
      · refine .inl ⟨by simp [turns, added, same], ?_⟩
        rw [Bool.eq_iff_iff, holds id, or_iff_left same]
  · refine attended.change sound ?_ (waits _) fun id => .inl ⟨?_, ?_⟩
    · rw [announced, attended.feed, stored_append]
      cases outcome : (a.table.add c).1.outcome with
      | added => exact absurd outcome refused
      | refreshed => simp [stored]
      | full => simp [stored]
    · cases outcome : (a.table.add c).1.outcome with
      | added => exact absurd outcome refused
      | refreshed => rfl
      | full => rfl
    · rw [Bool.eq_iff_iff]
      exact holds id

/-- What holds is kept when an identifier is withdrawn. -/
theorem withdraw (attended : Attended a events) (gone : Id) :
    Attended (a.move (.change (.withdraw gone))).2
      (events ++ (a.move (.change (.withdraw gone))).1) := by
  obtain ⟨announced, found⟩ := a.table.remove_announces gone
  have holds := attended.sound.contains_remove_iff gone
  refine attended.change (attended.sound.remove gone) ?_ (fun _ => id) fun id => ?_
  · rw [announced, attended.feed, stored_append]
    exact congrArg Feed.of (List.append_nil _).symm
  · cases stored : a.table.contains gone with
    | true =>
      by_cases same : gone = id
      · subst same
        have left : (a.table.remove gone).2.contains gone = false := by
          rw [← Bool.not_eq_true, holds gone]
          exact fun both => both.2 rfl
        refine .inr ⟨by simp [turns, found, stored, left], ?_⟩
        rw [left, stored]
        exact Bool.noConfusion
      · refine .inl ⟨by simp [turns, found, stored, same], ?_⟩
        rw [Bool.eq_iff_iff, holds id, and_iff_left (Ne.symm same)]
    | false =>
      refine .inl ⟨by simp [turns, found, stored], ?_⟩
      rw [Bool.eq_iff_iff, holds id]
      refine and_iff_left_of_imp ?_
      rintro held rfl
      rw [stored] at held
      exact Bool.noConfusion held

/-- What holds is kept when a reader starts to read, if nobody else's position changes. -/
theorem read (attended : Attended a events) {e : Event α} {reader : Nat} {readers : List Nat}
    (starts : ∀ other, e.starts other ↔ other = reader) (unstored : stored [e] = [])
    (unturned : ∀ id, turns id [e] = []) (room : reader < readers.length)
    (moved : ∀ position, readers[reader]? = some position → position = a.table.feed.total)
    (others : ∀ other, other ≠ reader → readers[other]? = a.readers[other]?) :
    Attended { a with readers := readers } (events ++ [e]) where
  sound := attended.sound
  feed := by
    rw [stored_append, unstored, List.append_nil]
    exact attended.feed
  listed := by
    intro other subscribed
    by_cases same : other = reader
    · rw [same]
      exact room
    · rcases List.mem_append.mp subscribed with earlier | last
      · have before := List.getElem?_eq_getElem (attended.listed other earlier)
        rw [← others other same] at before
        exact (List.getElem?_eq_some_iff.mp before).1
      · rw [← List.mem_singleton.mp last] at starts
        exact absurd ((starts other).mp rfl) same
  reading := by
    intro other position stands
    by_cases same : other = reader
    · refine ⟨events ++ [e], [], (List.append_nil _).symm,
        unread_nil events ((starts other).mpr same), ?_⟩
      rw [same] at stands
      rw [moved position stands, attended.feed, stored_append, unstored, List.append_nil]
      rfl
    · change readers[other]? = some position at stands
      rw [others other same] at stands
      obtain ⟨seen, unread, rfl, behind, read⟩ := attended.reading other position stands
      have waits : ¬e.starts other := fun again => same ((starts other).mp again)
      exact ⟨seen, unread ++ [e], List.append_assoc .., behind.concat waits, read⟩
  turning := by
    intro id
    rw [turns_append, unturned, List.append_nil]
    exact attended.turning id
  holding := by
    intro id
    rw [turns_append, unturned, List.append_nil]
    exact attended.holding id

/-- What holds is kept by every move. -/
theorem move (attended : Attended a events) (m : Move α) :
    Attended (a.move m).2 (events ++ (a.move m).1) := by
  cases m with
  | change change =>
    cases change with
    | offer c => exact attended.offer c
    | withdraw id => exact attended.withdraw id
  | subscribe =>
    refine attended.read (fun other => eq_comm) rfl (fun _ => rfl) ?_ ?_ ?_
    · rw [List.length_append]
      exact Nat.lt_succ_self _
    · intro position stands
      rw [List.getElem?_concat_length] at stands
      exact (Option.some.inj stands).symm
    · intro other differs
      rcases Nat.lt_or_gt_of_ne differs with before | behind
      · exact List.getElem?_append_left before
      · rw [List.getElem?_eq_none (by rw [List.length_append, List.length_singleton]; omega),
          List.getElem?_eq_none (Nat.le_of_lt behind)]
  | drain reader =>
    cases stands : a.readers[reader]? with
    | none =>
      have nothing : a.move (.drain reader) = ([], a) := by
        rw [Audience.move]
        simp only [stands]
      rw [nothing, List.append_nil]
      exact attended
    | some position =>
      rw [move_drain stands]
      have subscribed : reader < a.readers.length := (List.getElem?_eq_some_iff.mp stands).1
      refine attended.read (fun other => eq_comm) rfl (fun _ => rfl) ?_ ?_ ?_
      · rw [List.length_set]
        exact subscribed
      · intro position moved
        rw [List.getElem?_set_self subscribed] at moved
        exact (Option.some.inj moved).symm
      · intro other differs
        exact List.getElem?_set_ne differs.symm

/-- What holds of a new table holds after any moves. -/
theorem play (home : Id) (capacity maxDepth : Nat) (moves : List (Move α)) :
    Attended (Audience.play ⟨.withDepth home capacity maxDepth, []⟩ moves).2
      (Audience.play ⟨.withDepth home capacity maxDepth, []⟩ moves).1 := by
  induction moves using List.reverseRecOn with
  | nil => exact start home capacity maxDepth
  | append_singleton moves m hyp =>
    rw [play_append]
    exact hyp.move m

end Attended

/-- Whatever happens to a new table and its readers: every reader drains the contacts stored since
it drained last or subscribed, in order, or the latest 256 of them and the number of those before;
storing and removing an identifier take turns, beginning with storing; and the identifier is found
exactly while it was stored last. -/
theorem play_announcements (home : Id) (capacity maxDepth : Nat) (moves : List (Move α)) :
    let run := play ⟨.withDepth home capacity maxDepth, []⟩ moves
    (∀ reader, .subscribed reader ∈ run.1 → ∃ seen unread,
      run.1 = seen ++ unread ∧ Unread reader seen unread ∧
        (run.2.move (.drain reader)).1 = [.drained reader
          ⟨(stored unread).length - 256, (stored unread).drop ((stored unread).length - 256)⟩]) ∧
      ∀ id, (false :: turns id run.1).IsChain (· ≠ ·) ∧
        run.2.table.contains id = (turns id run.1).getLastD false := by
  intro run
  have attended : Attended run.2 run.1 := Attended.play home capacity maxDepth moves
  refine ⟨fun reader subscribed => ?_, fun id => ⟨attended.turning id, attended.holding id⟩⟩
  have stands := List.getElem?_eq_getElem (attended.listed reader subscribed)
  obtain ⟨seen, unread, split, behind, read⟩ := attended.reading reader _ stands
  refine ⟨seen, unread, split, behind, ?_⟩
  have batch := Feed.since_of (stored seen) (stored unread)
  rw [← stored_append, ← split, ← attended.feed, ← read] at batch
  rw [move_drain stands, batch]
  rfl

end Audience

end Overlay
