import Overlay.Proofs.Monitor.Probes

/-!
# Runs of a monitor

A monitor is played by moves: time passes, its host reports a message or a failed request, somebody
removes an identifier from the table, a probe takes a turn with any reply to its ping, or the
monitor is closed. A move that cannot be made leaves everything as it is, so every list of moves is
a run under some interleaving. Two results hold of every run, from any table. Whoever waits for a
probe has one under way, and waits no longer when that probe has ended. And a contact has no more
probes than one for each message that it sent while a probe of it was under way, and one besides:
such a message makes room for the next probe without ending the earlier one.
-/
namespace Overlay

variable {α : Type}

namespace Monitor

/-! ## The end of a probe -/

/-- The probe of this number has ended, and its contact waits no longer. -/
def Released (serial : Nat) (id : Id) (m : Monitor α) : Prop :=
  (∀ p ∈ m.probes, p.serial ≠ serial) ∧ id ∉ m.refreshing

section Ends

variable {m : Monitor α} {now serial : Nat} {p q : Probe α}

/-- The probes that are left when one has ended. -/
theorem mem_dropProbe : q ∈ (m.dropProbe serial).probes ↔ q ∈ m.probes ∧ q.serial ≠ serial := by
  rw [dropProbe, List.mem_filter, decide_eq_true_iff]

/-- A message ends no probe. -/
theorem mem_heard (now : Nat) (c : Contact α) (listed : q ∈ m.probes) :
    q ∈ (m.heard now c).2.probes := by
  rcases m.heard_cases now c with ⟨-, heard⟩ | ⟨stalest, -, heard⟩
  · rw [heard]
    exact listed
  · rw [heard]
    rcases (m.noted c).startProbe_cases now stalest with same | ⟨-, -, started⟩
    · rw [same]
      exact listed
    · rw [started]
      exact List.mem_append_left _ listed

/-- The turn of a probe ends no other one. -/
theorem mem_others (now : Nat) (known : m.probe? serial = some p) (listed : q ∈ m.probes)
    (other : q.serial ≠ serial) (reply : Reply α) :
    q ∈ (m.abandon serial).probes ∧ q ∈ (m.wake now serial).2.probes ∧
      q ∈ (m.pinged now serial reply).probes := by
  have left : q ∈ (m.dropProbe serial).probes := mem_dropProbe.mpr ⟨listed, other⟩
  have abandoned : q ∈ (m.abandon serial).probes := by
    rw [abandon_known known]
    exact left
  refine ⟨abandoned, ?_, ?_⟩
  · rcases wake_cases now known with ⟨-, woken⟩ | ⟨-, -, woken⟩ | ⟨-, -, woken⟩
    · rw [woken]
      exact left
    · rw [woken]
      exact abandoned
    · rw [woken]
      exact List.mem_append_left _ left
  · rcases pinged_cases now known reply with ⟨-, -, ended⟩ | ⟨-, ended⟩ | ⟨-, -, -, ended⟩
    · rw [ended]
      exact mem_heard now p.contact left
    · rw [ended]
      exact abandoned
    · rw [ended]
      exact left

/-- A probe that ends without a verdict releases its contact. -/
theorem Tended.abandon_released (tended : m.Tended) (known : m.probe? serial = some p) :
    (m.abandon serial).Released serial p.contact.id := by
  rw [abandon_known known]
  constructor
  · intro q left
    exact (mem_dropProbe.mp left).2
  · intro waits
    exact ((List.Nodup.mem_erase_iff tended.once).mp waits).1 rfl

/-- A probe that wakes releases its contact or waits for the reply to its ping. -/
theorem Tended.wake_released (tended : m.Tended) (known : m.probe? serial = some p) :
    (m.wake now serial).2.Released serial p.contact.id ∨
      { p with phase := .pinging, since := now } ∈ (m.wake now serial).2.probes := by
  rcases wake_cases now known with ⟨free, woken⟩ | ⟨-, -, woken⟩ | ⟨-, -, woken⟩
  · rw [woken]
    exact .inl ⟨fun q left => (mem_dropProbe.mp left).2, isRefreshing_eq_false_iff.mp free⟩
  · rw [woken]
    exact .inl (tended.abandon_released known)
  · rw [woken]
    exact .inr (List.mem_append_right _ (List.mem_singleton.mpr rfl))

/-- A probe whose ping has ended releases its contact. -/
theorem Tended.pinged_released (tended : m.Tended) (known : m.probe? serial = some p)
    (reply : Reply α) : (m.pinged now serial reply).Released serial p.contact.id := by
  have dropped := tended.abandon_released known
  rw [abandon_known known] at dropped
  rcases pinged_cases now known reply with ⟨-, -, ended⟩ | ⟨-, ended⟩ | ⟨-, -, -, ended⟩
  · rw [ended]
    rcases (m.dropProbe serial).heard_cases now p.contact with ⟨-, heard⟩ | ⟨stalest, named, heard⟩
    · rw [heard]
      exact dropped
    · -- The reply may have the stalest contact of a full bucket probed, which is another one.
      have other : stalest.id ≠ p.contact.id := (m.dropProbe serial).table.stalest_ne named
      rw [heard]
      rcases ((m.dropProbe serial).noted p.contact).startProbe_cases now stalest with
        same | ⟨-, -, started⟩
      · rw [same]
        exact dropped
      · obtain ⟨listed, number⟩ := mem_of_probe? known
        have fresh := tended.issued p listed
        rw [started]
        constructor
        · intro q stays
          rcases List.mem_append.mp stays with left | new
          · exact dropped.1 q left
          · rw [List.mem_singleton.mp new]
            show m.started ≠ serial
            omega
        · intro waits
          rcases List.mem_cons.mp waits with same | before
          · exact other same.symm
          · exact dropped.2 before
  · rw [ended]
    exact tended.abandon_released known
  · rw [ended]
    exact dropped

end Ends

/-! ## Probes of one contact -/

/-- The probes of a contact that are under way. -/
def probesOf (m : Monitor α) (id : Id) : List (Probe α) :=
  m.probes.filter fun p => p.contact.id = id

/-- The probes of a contact that wait for the reply to their ping. -/
def pingsOf (m : Monitor α) (id : Id) : List (Probe α) :=
  (m.probesOf id).filter fun p => p.phase = .pinging

/-- A contact has no more probes than these, and one besides if it waits. -/
def Within (id : Id) (count : Nat) (m : Monitor α) : Prop :=
  (m.probesOf id).length ≤ count + if id ∈ m.refreshing then 1 else 0

section Within

variable {m : Monitor α} {id : Id} {count : Nat}

/-- The end of a probe leaves no more probes of any contact, and fewer of its own. -/
theorem length_probesOf_dropProbe {serial : Nat} {p : Probe α}
    (known : m.probe? serial = some p) (id : Id) :
    ((m.dropProbe serial).probesOf id).length + (if id = p.contact.id then 1 else 0) ≤
      (m.probesOf id).length := by
  have left : (m.dropProbe serial).probesOf id =
      (m.probesOf id).filter fun q => q.serial ≠ serial := by
    simp only [probesOf, dropProbe, List.filter_filter, Bool.and_comm]
  rw [left]
  split
  · next own =>
    obtain ⟨listed, number⟩ := mem_of_probe? known
    have counted : p ∈ m.probesOf id := List.mem_filter.mpr ⟨listed, by simp [own]⟩
    apply Nat.succ_le_of_lt
    apply List.length_filter_lt_length_iff_exists.mpr
    exact ⟨p, counted, by simp [number]⟩
  · have bound := (m.probesOf id).length_filter_le fun q => q.serial ≠ serial
    omega

/-- A message from a contact makes room for one more probe of it. -/
theorem Within.settled (within : m.Within id count) (other : Id) :
    (m.settled other).Within id (count + if other = id then 1 else 0) := by
  have same : ((m.settled other).probesOf id).length = (m.probesOf id).length := rfl
  unfold Within at within ⊢
  rw [same]
  by_cases own : other = id
  · rw [if_pos own]
    split at within <;> omega
  · have still : id ∈ (m.settled other).refreshing ↔ id ∈ m.refreshing :=
      List.mem_erase_of_ne (fun equal => own equal.symm)
    rw [if_neg own]
    simp only [still]
    exact within

/-- Whatever probes do, a contact has no more of them than it had room for. -/
theorem within_stable (now : Nat) (id : Id) (count : Nat) :
    Stable now (Within id count : Monitor α → Prop) where
  alike := by
    intro m next alike within
    unfold Within probesOf at within ⊢
    rw [alike.probes, alike.refreshing]
    exact within
  finish := by
    intro m serial p known within
    have fewer := length_probesOf_dropProbe known id
    have settled : ((m.dropProbe serial).settled p.contact.id).probesOf id =
        (m.dropProbe serial).probesOf id := rfl
    unfold Within at within ⊢
    rw [settled]
    by_cases own : id = p.contact.id
    · rw [if_pos own] at fewer
      split at within <;> omega
    · have still : id ∈ ((m.dropProbe serial).settled p.contact.id).refreshing ↔
          id ∈ m.refreshing := List.mem_erase_of_ne own
      simp only [still]
      omega
  start := by
    intro m c within
    rcases m.startProbe_cases now c with same | ⟨-, free, started⟩
    · rw [same]
      exact within
    · rw [started]
      unfold Within probesOf at within ⊢
      by_cases own : c.id = id
      · -- The contact did not wait before and does so now.
        rw [own] at free
        rw [if_neg free] at within
        simp [List.filter_append, own]
        omega
      · have apart : id ≠ c.id := fun equal => own equal.symm
        simpa [List.filter_append, own, apart] using within
  pass := by
    intro m serial p known within
    have fewer := length_probesOf_dropProbe known id
    have moved : ((m.passed now serial p).probesOf id).length =
        ((m.dropProbe serial).probesOf id).length + if id = p.contact.id then 1 else 0 := by
      unfold probesOf passed
      by_cases own : p.contact.id = id
      · simp [List.filter_append, own]
      · have apart : id ≠ p.contact.id := fun equal => own equal.symm
        simp [List.filter_append, own, apart]
    unfold Within at within ⊢
    rw [moved]
    exact Nat.le_trans fewer within

end Within

end Monitor

/-- A monitor at a moment. -/
structure Watch (α : Type) where
  /-- The present. -/
  now : Nat
  /-- The monitor. -/
  monitor : Monitor α

namespace Watch

/-- What may happen next. -/
inductive Move (α : Type) where
  /-- Time passes. -/
  | wait (millis : Nat)
  /-- The host reports a message. -/
  | hear (c : Contact α)
  /-- The host reports a failed request. -/
  | complain (id : Id)
  /-- An identifier is removed from the table. -/
  | remove (id : Id)
  /-- A probe takes a turn, with the reply to its ping if that has come. It is or is not aware that
  the monitor has been closed, if it has. -/
  | turn (serial : Nat) (aware : Bool) (reply : Option (Reply α))
  /-- The monitor is closed. -/
  | close

/-- A monitor of a table, whatever that holds, before anything has happened. -/
def start (config : Config) (table : Table α) : Watch α where
  now := 0
  monitor := { Monitor.new table.home config with table := table }

/-- The monitor after the turn of a probe. The probe wakes when its delay is over, ends when the
reply to its ping has come, and ends at once when it is aware that the monitor has been closed. -/
def turn (w : Watch α) (serial : Nat) (aware : Bool) (reply : Option (Reply α)) : Monitor α :=
  match w.monitor.probe? serial with
  | none => w.monitor
  | some p =>
    if w.monitor.closed && aware then w.monitor.abandon serial
    else
      match p.phase, reply with
      | .delayed time, _ =>
        if time ≤ w.now then (w.monitor.wake w.now serial).2 else w.monitor
      | .pinging, some reply => w.monitor.pinged w.now serial reply
      | .pinging, none => w.monitor

/-- The watch after a move. -/
def move (w : Watch α) : Move α → Watch α
  | .wait millis => { w with now := w.now + millis }
  | .hear c => { w with monitor := (w.monitor.heard w.now c).2 }
  | .complain id => { w with monitor := (w.monitor.requestFailed id).2 }
  | .remove id => { w with monitor := { w.monitor with table := (w.monitor.table.remove id).2 } }
  | .turn serial aware reply => { w with monitor := w.turn serial aware reply }
  | .close => { w with monitor := w.monitor.close }

/-- The watch after some moves, the first of the list first. -/
def play (w : Watch α) (moves : List (Move α)) : Watch α := moves.foldl move w

section Moves

variable {w : Watch α} {serial : Nat} {p : Probe α} {P : Monitor α → Prop}

/-- What the turn of a probe comes to: it waits on, it is given up, it wakes, or its ping ends. -/
theorem turn_cases (known : w.monitor.probe? serial = some p) (aware : Bool)
    (reply : Option (Reply α)) :
    (w.turn serial aware reply = w.monitor ∧
      ((∃ time, p.phase = .delayed time ∧ w.now < time) ∨ p.phase = .pinging ∧ reply = none)) ∨
      w.turn serial aware reply = w.monitor.abandon serial ∨
      (p.phase ≠ .pinging ∧ w.turn serial aware reply = (w.monitor.wake w.now serial).2) ∨
      ∃ came, reply = some came ∧
        w.turn serial aware reply = w.monitor.pinged w.now serial came := by
  unfold turn
  simp only [known]
  by_cases closed : (w.monitor.closed && aware) = true
  · exact .inr (.inl (if_pos closed))
  · rw [if_neg closed]
    cases phase : p.phase with
    | delayed time =>
      dsimp only
      by_cases due : time ≤ w.now
      · exact .inr (.inr (.inl ⟨nofun, if_pos due⟩))
      · exact .inl ⟨if_neg due, .inl ⟨time, rfl, Nat.lt_of_not_le due⟩⟩
    | pinging =>
      cases reply with
      | none => exact .inl ⟨rfl, .inr ⟨rfl, rfl⟩⟩
      | some came => exact .inr (.inr (.inr ⟨came, rfl, rfl⟩))

/-- What is kept by whatever probes do is kept by the turn of one. -/
theorem turn_keeps (stable : Monitor.Stable w.now P) (kept : P w.monitor) (serial : Nat)
    (aware : Bool) (reply : Option (Reply α)) : P (w.turn serial aware reply) := by
  cases known : w.monitor.probe? serial with
  | none =>
    have same : w.turn serial aware reply = w.monitor := by simp only [turn, known]
    rw [same]
    exact kept
  | some p =>
    rcases turn_cases known aware reply with ⟨same, -⟩ | same | ⟨-, same⟩ | ⟨came, -, same⟩
    · rw [same]
      exact kept
    · rw [same]
      exact stable.abandon kept serial
    · rw [same]
      exact stable.wake kept serial
    · rw [same]
      exact stable.pinged kept serial came

/-- What is kept by whatever probes do is kept by every move, if it is kept when the sender of a
message stops waiting and when time passes. -/
theorem move_keeps (stable : Monitor.Stable w.now P) (kept : P w.monitor) (m : Move α)
    (settled : ∀ c, m = .hear c → P (w.monitor.settled c.id)) : P (w.move m).monitor := by
  cases m with
  | wait millis => exact kept
  | hear c => exact stable.heard (settled c rfl)
  | complain id => exact stable.requestFailed kept id
  | remove id => exact stable.remove kept id
  | turn serial aware reply => exact turn_keeps stable kept serial aware reply
  | close => exact stable.close kept

/-- Whatever lasts holds after any moves. -/
theorem play_lasting {P : Nat → Monitor α → Prop} (lasting : Monitor.Lasting P)
    (holds : P w.now w.monitor) (moves : List (Move α)) :
    P (w.play moves).now (w.play moves).monitor := by
  induction moves generalizing w with
  | nil => exact holds
  | cons m moves further =>
    apply further
    have kept : P w.now (w.move m).monitor :=
      move_keeps (lasting.stable w.now) holds m fun c _ => lasting.settled w.now c.id holds
    cases m with
    | wait millis => exact lasting.later millis kept
    | _ => exact kept

/-- A new monitor has nothing under way. -/
theorem start_attended (config : Config) (table : Table α) :
    (start config table).monitor.Attended config 0 :=
  ⟨⟨⟨List.nodup_nil, nofun, List.nodup_nil, nofun⟩, rfl⟩, nofun⟩

/-- A probe that ends in a move releases its contact. -/
theorem released_of_ended (tended : w.monitor.Tended) (m : Move α) (listed : p ∈ w.monitor.probes)
    (ended : ∀ q ∈ (w.move m).monitor.probes, q.serial ≠ p.serial) :
    (w.move m).monitor.Released p.serial p.contact.id := by
  have gone : p ∉ (w.move m).monitor.probes := fun stays => ended p stays rfl
  cases m with
  | wait millis => exact absurd listed gone
  | hear c => exact absurd (Monitor.mem_heard w.now c listed) gone
  | complain id =>
    have stays : p ∈ (w.monitor.requestFailed id).2.probes := by
      unfold Monitor.requestFailed
      split
      · exact listed
      · dsimp only
        split <;> exact listed
    exact absurd stays gone
  | remove id => exact absurd listed gone
  | close => exact absurd listed gone
  | turn serial aware reply =>
    refine ⟨ended, ?_⟩
    cases known : w.monitor.probe? serial with
    | none =>
      have same : w.turn serial aware reply = w.monitor := by simp only [turn, known]
      rw [move, same] at gone
      exact absurd listed gone
    | some q =>
      by_cases own : p.serial = serial
      · have found := tended.probe?_serial listed
        rw [own] at found
        obtain rfl : p = q := Option.some.inj (found.symm.trans known)
        rw [move] at gone ⊢
        rcases turn_cases known aware reply with ⟨same, -⟩ | same | ⟨-, same⟩ | ⟨came, -, same⟩
        · rw [same] at gone
          exact absurd listed gone
        · rw [same]
          exact (tended.abandon_released known).2
        · rcases tended.wake_released known with released | waits
          · rw [same]
            exact released.2
          · -- A probe that waits for the reply to its ping has not ended.
            have ended' : ∀ q ∈ (w.turn serial aware reply).probes, q.serial ≠ p.serial := ended
            rw [same] at ended'
            exact (ended' _ waits rfl).elim
        · rw [same]
          exact (tended.pinged_released known came).2
      · have others := Monitor.mem_others w.now known listed own
        have stays : p ∈ (w.turn serial aware reply).probes := by
          rcases turn_cases known aware reply with ⟨same, -⟩ | same | ⟨-, same⟩ | ⟨came, -, same⟩
          · rw [same]
            exact listed
          · rw [same]
            exact (others (.ok [])).1
          · rw [same]
            exact (others (.ok [])).2.1
          · rw [same]
            exact (others came).2.2
        exact absurd stays gone

end Moves

/-! ## Whoever waits -/

section Courses

variable {w : Watch α} {config : Config} {serial : Nat} {p : Probe α}
  {F : Nat → Probe α → Prop}

/-- The probe of this number, if it is under way, is such a one. -/
def Stands (serial : Nat) (F : Nat → Probe α → Prop) (now : Nat) (m : Monitor α) : Prop :=
  serial < m.started ∧ ∀ p ∈ m.probes, p.serial = serial → F now p

/-- A probe stays what it is if neither its ping nor the passage of time makes it another one. -/
theorem stands_lasting
    (passes : ∀ {now p}, F now p → F now { p with phase := .pinging, since := now })
    (lasts : ∀ {now p} (millis : Nat), F now p → F (now + millis) p) :
    Monitor.Lasting (Stands serial F) := by
  have issued : Monitor.Lasting fun _ (m : Monitor α) => serial < m.started :=
    Monitor.frame_lasting fun _ _ _ _ more before => Nat.lt_of_lt_of_le before more
  apply issued.each
  · -- A new probe has a number of its own.
    intro now m c before _ number
    exact absurd number (Nat.ne_of_gt before)
  · intro now p stands number
    exact passes (stands number)
  · intro now p millis stands number
    exact lasts millis (stands number)

/-- The probe is of this contact. -/
def Of (serial : Nat) (c : Contact α) : Nat → Monitor α → Prop :=
  Stands serial fun _ p => p.contact = c

/-- The delay of the probe is over. -/
def Due (serial : Nat) : Nat → Monitor α → Prop :=
  Stands serial fun now p => ∀ time, p.phase = .delayed time → time ≤ now

/-- The probe waits for the reply to its ping. -/
def Asking (serial : Nat) : Nat → Monitor α → Prop := Stands serial fun _ p => p.phase = .pinging

/-- The probe is not under way any more. -/
def Ended (serial : Nat) : Nat → Monitor α → Prop := Stands serial fun _ _ => False

theorem of_lasting (c : Contact α) : Monitor.Lasting (Of serial c) :=
  stands_lasting (fun same => same) fun _ same => same

theorem due_lasting : Monitor.Lasting (Due serial : Nat → Monitor α → Prop) :=
  stands_lasting (fun _ _ other => nomatch other) fun _ due time delayed =>
    Nat.le_add_right_of_le (due time delayed)

theorem asking_lasting : Monitor.Lasting (Asking serial : Nat → Monitor α → Prop) :=
  stands_lasting (fun _ => rfl) fun _ asking => asking

/-- The turn of a number that no probe has changes nothing, and there is no probe of it. -/
theorem turn_unknown (unknown : w.monitor.probe? serial = none) (aware : Bool)
    (reply : Option (Reply α)) :
    w.turn serial aware reply = w.monitor ∧ ∀ p ∈ w.monitor.probes, p.serial ≠ serial := by
  refine ⟨by simp only [turn, unknown], fun p listed => ?_⟩
  simpa using List.find?_eq_none.mp unknown p listed

/-- A probe whose delay is over pings or ends in its turn. -/
theorem Due.turn (due : Due serial w.now w.monitor) (tended : w.monitor.Tended)
    (aware : Bool) (reply : Option (Reply α)) :
    Asking serial w.now (w.turn serial aware reply) := by
  have issued : serial < (w.turn serial aware reply).started :=
    (turn_keeps (due_lasting.stable w.now) due serial aware reply).1
  refine ⟨issued, fun q stays number => ?_⟩
  cases known : w.monitor.probe? serial with
  | none =>
    obtain ⟨same, absent⟩ := turn_unknown known aware reply
    rw [same] at stays
    exact absurd number (absent q stays)
  | some p =>
    obtain ⟨listed, own⟩ := Monitor.mem_of_probe? known
    rcases turn_cases known aware reply with ⟨same, ⟨time, delayed, early⟩ | ⟨asking, -⟩⟩ | same |
      ⟨-, same⟩ | ⟨came, -, same⟩
    · exact absurd (due.2 p listed own time delayed) (Nat.not_le_of_gt early)
    · rw [same] at stays
      have found := tended.probe?_serial stays
      rw [number, known] at found
      obtain rfl := Option.some.inj found
      exact asking
    · rw [same] at stays
      exact absurd number ((tended.abandon_released known).1 q stays)
    · rw [same] at stays
      rcases Monitor.wake_cases w.now known with ⟨-, woken⟩ | ⟨-, -, woken⟩ | ⟨-, -, woken⟩
      · rw [woken] at stays
        exact absurd number (Monitor.mem_dropProbe.mp stays).2
      · rw [woken] at stays
        exact absurd number ((tended.abandon_released known).1 q stays)
      · rw [woken] at stays
        rcases List.mem_append.mp stays with left | moved
        · exact absurd number (Monitor.mem_dropProbe.mp left).2
        · rw [List.mem_singleton.mp moved]
    · rw [same] at stays
      exact absurd number ((tended.pinged_released known came).1 q stays)

/-- A probe that waits for the reply to its ping ends when that comes. -/
theorem Asking.turn (asking : Asking serial w.now w.monitor) (tended : w.monitor.Tended)
    (aware : Bool) (reply : Reply α) : Ended serial w.now (w.turn serial aware (some reply)) := by
  have issued : serial < (w.turn serial aware (some reply)).started :=
    (turn_keeps (asking_lasting.stable w.now) asking serial aware (some reply)).1
  refine ⟨issued, fun q stays number => ?_⟩
  cases known : w.monitor.probe? serial with
  | none =>
    obtain ⟨same, absent⟩ := turn_unknown known aware (some reply)
    rw [same] at stays
    exact absent q stays number
  | some p =>
    obtain ⟨listed, own⟩ := Monitor.mem_of_probe? known
    have phase := asking.2 p listed own
    rcases turn_cases known aware (some reply) with ⟨-, ⟨time, delayed, -⟩ | ⟨-, none⟩⟩ | same |
      ⟨other, -⟩ | ⟨came, -, same⟩
    · rw [phase] at delayed
      cases delayed
    · cases none
    · rw [same] at stays
      exact (tended.abandon_released known).1 q stays number
    · exact absurd phase other
    · rw [same] at stays
      exact (tended.pinged_released known came).1 q stays number

/-- A probe under way is of its own contact. -/
theorem of_listed (tended : w.monitor.Tended) (listed : p ∈ w.monitor.probes) :
    Of p.serial p.contact w.now w.monitor := by
  refine ⟨tended.issued p listed, fun q other number => ?_⟩
  have found := tended.probe?_serial other
  rw [number, tended.probe?_serial listed] at found
  rw [Option.some.inj found]

/-- A contact whose probe has ended in some moves has stopped waiting in the course of them. -/
theorem released_within (attended : w.monitor.Attended config w.now)
    (listed : p ∈ w.monitor.probes) (moves : List (Move α))
    (ended : ∀ q ∈ (w.play moves).monitor.probes, q.serial ≠ p.serial) :
    ∃ before, before <+: moves ∧ (w.play before).monitor.isRefreshing p.contact.id = false := by
  induction moves generalizing w p with
  | nil => exact absurd rfl (ended p listed)
  | cons m moves further =>
    have next : (w.move m).monitor.Attended config (w.move m).now :=
      play_lasting (Monitor.attended_lasting config) attended [m]
    by_cases here : ∀ q ∈ (w.move m).monitor.probes, q.serial ≠ p.serial
    · -- This is the move in which the probe ends.
      obtain ⟨-, free⟩ := released_of_ended attended.tended m listed here
      exact ⟨[m], List.prefix_append [m] moves, Monitor.isRefreshing_eq_false_iff.mpr free⟩
    · obtain ⟨q, stays, number⟩ : ∃ q ∈ (w.move m).monitor.probes, q.serial = p.serial := by
        simpa using here
      have course : Of p.serial p.contact (w.move m).now (w.move m).monitor :=
        play_lasting (of_lasting p.contact) (of_listed attended.tended listed) [m]
      have contact := course.2 q stays number
      rw [← number] at ended
      obtain ⟨before, part, free⟩ := further next stays ended
      rw [contact] at free
      exact ⟨m :: before, List.cons_prefix_cons.mpr ⟨rfl, part⟩, free⟩

/-- Whatever happens meanwhile, a probe has ended after its delay, a turn of its own, and another
one that brings the reply to its ping. -/
theorem ended_of_turns (attended : w.monitor.Attended config w.now)
    (listed : p ∈ w.monitor.probes) (early between : List (Move α)) (aware aware' : Bool)
    (first : Option (Reply α)) (last : Reply α) :
    let turns := .wait config.probeDelay :: early ++
      .turn p.serial aware first :: between ++ [.turn p.serial aware' (some last)]
    ∀ q ∈ (w.play turns).monitor.probes, q.serial ≠ p.serial := by
  intro turns
  let ready := w.play (.wait config.probeDelay :: early)
  let pinging := ready.play (.turn p.serial aware first :: between)
  have course : w.play turns = pinging.move (.turn p.serial aware' (some last)) := by
    simp only [turns, pinging, ready, play, List.foldl_append, List.foldl_cons, List.foldl_nil,
      List.cons_append, List.append_assoc]
  have lasts (w : Watch α) (moves : List (Move α)) (attended : w.monitor.Attended config w.now) :=
    play_lasting (Monitor.attended_lasting config) attended moves
  have attendedReady := lasts w (.wait config.probeDelay :: early) attended
  have attendedPinging := lasts ready (.turn p.serial aware first :: between) attendedReady
  have due : Due p.serial ready.now ready.monitor := by
    apply play_lasting due_lasting (w := w.move (.wait config.probeDelay))
    refine ⟨attended.tended.issued p listed, fun q other number time delayed => ?_⟩
    exact attended.2 q other time delayed
  have asking : Asking p.serial pinging.now pinging.monitor :=
    play_lasting asking_lasting (w := ready.move (.turn p.serial aware first))
      (due.turn attendedReady.tended aware first) between
  intro q stays number
  rw [course] at stays
  exact (asking.turn attendedPinging.tended aware' last).2 q stays number

end Courses

/-- Whatever happens to a monitor, in any order: whoever waits has a probe under way, so that nobody
waits when there is none. No contact waits for ever: whatever else happens meanwhile, its probe has
ended after its delay and two turns of its own, the second one with the reply to its ping, whatever
that is; and the contact has stopped waiting by then. -/
theorem play_attended (config : Config) (table : Table α) (moves : List (Move α)) :
    let w := (start config table).play moves
    (∀ id, w.monitor.isRefreshing id = true → ∃ p ∈ w.monitor.probes, p.contact.id = id) ∧
    (w.monitor.probes = [] → w.monitor.refreshing = []) ∧
    ∀ p ∈ w.monitor.probes, ∀ (early between : List (Move α)) (aware aware' : Bool)
      (first : Option (Reply α)) (last : Reply α),
      let turns := .wait config.probeDelay :: early ++
        .turn p.serial aware first :: between ++ [.turn p.serial aware' (some last)]
      (∀ q ∈ (w.play turns).monitor.probes, q.serial ≠ p.serial) ∧
      ∃ before, before <+: turns ∧ (w.play before).monitor.isRefreshing p.contact.id = false := by
  intro w
  have attended : w.monitor.Attended config w.now :=
    play_lasting (Monitor.attended_lasting config) (start_attended config table) moves
  refine ⟨fun id waits => ?_, fun quiet => ?_, ?_⟩
  · exact attended.tended.tended id (Monitor.isRefreshing_eq_true_iff.mp waits)
  · apply List.eq_nil_iff_forall_not_mem.mpr
    intro id waits
    obtain ⟨p, listed, -⟩ := attended.tended.tended id waits
    rw [quiet] at listed
    cases listed
  · intro p listed early between aware aware' first last turns
    have ended := ended_of_turns attended listed early between aware aware' first last
    exact ⟨ended, released_within attended listed turns ended⟩

/-- Parameters of a table of one bucket for two contacts. -/
def narrow : Config := { k := 2, maxSplitDepth := 0 }

/-- The last one of these messages finds the bucket full, and has its stalest contact probed. -/
def filling : List (Move Unit) := [.hear ⟨⟨1⟩, ()⟩, .hear ⟨⟨2⟩, ()⟩, .hear ⟨⟨3⟩, ()⟩]

/-- The contact waits for its probe, and no longer once that has pinged it in vain. -/
theorem play_attended_filling :
    let w := (start narrow (.withDepth ⟨0⟩ narrow.k narrow.maxSplitDepth)).play filling
    w.monitor.isRefreshing ⟨1⟩ = true ∧ (∃ p ∈ w.monitor.probes, p.contact.id = ⟨1⟩) ∧
      ∃ before, before <+: [.wait narrow.probeDelay, .turn 0 true none,
          .turn 0 true (some (.error .timeout))] ∧
        (w.play before).monitor.isRefreshing ⟨1⟩ = false := by
  intro w
  obtain ⟨tended, -, ends⟩ :=
    play_attended narrow (.withDepth ⟨0⟩ narrow.k narrow.maxSplitDepth) filling
  have waits : w.monitor.isRefreshing ⟨1⟩ = true := by decide +kernel
  let probe : Probe Unit := ⟨0, ⟨⟨1⟩, ()⟩, .delayed narrow.probeDelay, 0⟩
  have listed : probe ∈ w.monitor.probes := by decide +kernel
  refine ⟨waits, tended ⟨1⟩ waits, ?_⟩
  exact (ends probe listed [] [] true true none (.error .timeout)).2

/-! ## Probes of one contact -/

/-- A message comes from a contact while a probe of it is under way. -/
def interrupts (w : Watch α) (id : Id) : Move α → Bool
  | .hear c => decide (c.id = id) && !(w.monitor.probesOf id).isEmpty
  | _ => false

/-- Number of moves in which a message comes from a contact while a probe of it is under way. -/
def interruptions (w : Watch α) (id : Id) : List (Move α) → Nat
  | [] => 0
  | m :: moves => (w.interrupts id m).toNat + (w.move m).interruptions id moves

section Probes

variable {w : Watch α} {id : Id} {count : Nat}

/-- A message makes room for one more probe of its sender if a probe of it is under way. -/
theorem within_heard (within : w.monitor.Within id count) (c : Contact α) :
    (w.monitor.settled c.id).Within id (count + (w.interrupts id (.hear c)).toNat) := by
  have room := within.settled c.id
  by_cases own : c.id = id
  · cases idle : (w.monitor.probesOf id).isEmpty with
    | true =>
      have none : ((w.monitor.settled c.id).probesOf id).length = 0 :=
        List.length_eq_zero_iff.mpr (List.isEmpty_iff.mp idle)
      unfold Monitor.Within
      omega
    | false => simpa [interrupts, own, idle] using room
  · simpa [interrupts, own] using room

/-- A contact gets no more probes than one for each message that comes while one is under way. -/
theorem play_within (within : w.monitor.Within id count) (moves : List (Move α)) :
    (w.play moves).monitor.Within id (count + w.interruptions id moves) := by
  induction moves generalizing w count with
  | nil => exact within
  | cons m moves further =>
    have stable := Monitor.within_stable (α := α) w.now id
    rw [interruptions, ← Nat.add_assoc]
    apply further
    cases m with
    | hear c => exact (stable _).heard (within_heard within c)
    | _ => exact move_keeps (stable count) within _ nofun

end Probes

/-- Whatever happens to a monitor, in any order, a contact never has more probes under way than one
for each message that it has sent while one was under way, and one besides; so not more of them
wait for the reply to their ping. -/
theorem play_probes (config : Config) (table : Table α) (moves : List (Move α)) (id : Id) :
    let w := (start config table).play moves
    (w.monitor.pingsOf id).length ≤ (w.monitor.probesOf id).length ∧
      (w.monitor.probesOf id).length ≤ 1 + (start config table).interruptions id moves := by
  intro w
  have none : (start config table).monitor.Within id 0 := Nat.zero_le _
  have within : w.monitor.Within id _ := play_within none moves
  refine ⟨List.length_filter_le .., ?_⟩
  unfold Monitor.Within at within
  split at within <;> omega

/-- The bucket is found full, its stalest contact speaks, and the bucket is found full once more
with that contact as the stalest one again, all before the first probe wakes; then both wake. -/
def crowded : List (Move Unit) :=
  filling ++ .wait 50 :: filling ++ [.wait 150, .turn 0 true none, .wait 50, .turn 1 true none]

/-- The first probe takes the second one's waiting for its own and pings the contact although that
has spoken; then the second one pings it too, while the first one still waits for the reply. -/
theorem crowded_pings_twice :
    narrow.validate = .ok () ∧
      ¬(((start narrow (.withDepth ⟨0⟩ narrow.k narrow.maxSplitDepth)).play
        crowded).monitor.pingsOf ⟨1⟩).length ≤ 1 := by
  decide +kernel

end Watch

end Overlay
