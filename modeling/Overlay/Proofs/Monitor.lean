import Mathlib.Logic.Function.Basic
import Overlay.Monitor
import Overlay.Proofs.Contents

/-!
# What a monitor makes of news

All that a node ever learns of another one is that it is alive, that a request to it has failed,
that a probe of it has failed, or that the host has removed it. The table and the failure counts,
which make up the ledger of a monitor, change by such news and by nothing else: delaying, waking
and dropping probes leaves the ledger as it is, and news leaves the pings as they are.
-/
namespace Overlay

/-- What a node learns of another one. -/
inductive News (α : Type) where
  /-- It has sent a message. -/
  | alive (c : Contact α)
  /-- A request to it has failed. -/
  | failed (id : Id)
  /-- A probe of it has failed. -/
  | dead (id : Id)
  /-- The host has removed it. -/
  | removed (id : Id)
  deriving DecidableEq, Repr

namespace News

variable {α : Type}

/-- What the end of a query says of the node asked; nothing if the caller has withdrawn it. -/
def ofQuery (fired : Bool) (c : Contact α) : Reply α → List (News α)
  | .ok _ => [alive c]
  | .error fault => if fired && fault.isCancelled then [] else [failed c.id]

/-- What the end of a ping says of a contact to start from. -/
def ofGreeting (c : Contact α) : Reply α → List (News α)
  | .ok _ => [alive c]
  | .error _ => []

/-- What the end of the ping of a probe says of its contact. -/
def ofProbe (c : Contact α) : Reply α → List (News α)
  | .ok _ => [alive c]
  | .error fault => if fault.isCancelled then [] else [dead c.id]

end News

/-- What a node remembers of others. -/
structure Ledger (α : Type) where
  /-- Failures in a row that remove a contact. -/
  threshold : Nat
  /-- The routing table. -/
  table : Table α
  /-- Failures in a row, by node. -/
  failures : Recency Nat

namespace Ledger

variable {α : Type}

/-- Failures in a row of a node. -/
def count (l : Ledger α) (id : Id) : Nat := (l.failures.peek? id).getD 0

/-- The ledger after a piece of news. -/
def learn (l : Ledger α) : News α → Ledger α
  | .alive c => { l with table := (l.table.add c).2, failures := l.failures.erase c.id }
  | .failed id =>
    if id = l.table.home then l
    else if l.count id + 1 < l.threshold then
      { l with failures := l.failures.put id (l.count id + 1) }
    else { l with table := (l.table.remove id).2, failures := l.failures.erase id }
  | .dead id => { l with table := (l.table.remove id).2, failures := l.failures.erase id }
  | .removed id =>
    if id = l.table.home then l else { l with table := (l.table.remove id).2 }

/-- The ledger after some news, the first of the list first. -/
def learnAll (l : Ledger α) (news : List (News α)) : Ledger α := news.foldl learn l

/-- What news comes to for the table: a live contact is offered to it, and one that is removed, has
failed too often in a row or was found dead is taken out. -/
theorem table_learn (l : Ledger α) (news : News α) :
    (∃ c, news = .alive c ∧ (l.learn news).table = (l.table.add c).2) ∨
      (l.learn news).table = l.table ∨
      ∃ id, (news = .removed id ∨ (news = .failed id ∧ l.threshold ≤ l.count id + 1) ∨
          news = .dead id) ∧ (l.learn news).table = (l.table.remove id).2 := by
  cases news with
  | alive c => exact .inl ⟨c, rfl, rfl⟩
  | failed id =>
    rw [learn]
    split
    · exact .inr (.inl rfl)
    · split
      · exact .inr (.inl rfl)
      · next many => exact .inr (.inr ⟨id, .inr (.inl ⟨rfl, Nat.le_of_not_lt many⟩), rfl⟩)
  | dead id => exact .inr (.inr ⟨id, .inr (.inr rfl), rfl⟩)
  | removed id =>
    rw [learn]
    split
    · exact .inr (.inl rfl)
    · exact .inr (.inr ⟨id, .inl rfl, rfl⟩)

/-- The parts of a ledger that no news touches. -/
def frame (l : Ledger α) : Nat × Id × Nat × Nat := (l.threshold, l.table.frame)

/-- News changes neither the limits nor the home of a ledger. -/
theorem frame_learn (l : Ledger α) (news : News α) : (l.learn news).frame = l.frame := by
  have threshold : (l.learn news).threshold = l.threshold := by
    cases news with
    | alive c => rfl
    | failed id =>
      rw [learn]
      split
      · rfl
      · split <;> rfl
    | dead id => rfl
    | removed id =>
      rw [learn]
      split <;> rfl
  have table : (l.learn news).table.frame = l.table.frame := by
    rcases l.table_learn news with ⟨c, -, same⟩ | same | ⟨id, -, same⟩
    · rw [same]
      exact l.table.frame_change (.offer c)
    · rw [same]
    · rw [same]
      exact l.table.frame_change (.withdraw id)
  rw [frame, threshold, table, frame]

/-- News changes neither the limits nor the home of a ledger, however much there is. -/
theorem frame_learnAll (l : Ledger α) (news : List (News α)) :
    (l.learnAll news).frame = l.frame := by
  induction news generalizing l with
  | nil => rfl
  | cons first later further => exact (further (l.learn first)).trans (l.frame_learn first)

end Ledger

/-- What is asked, and of whom. -/
def Call.question {α : Type} (call : Call α) : Contact α × Request := (call.callee, call.request)

/-- The ping whose reply the probe waits for. -/
def Probe.awaits {α : Type} (p : Probe α) : Option (Contact α × Request) :=
  match p.phase with
  | .delayed _ => none
  | .pinging => some (p.contact, .ping)

namespace Monitor

variable {α : Type} (m : Monitor α) (now serial : Nat)

/-- What the monitor remembers of others. -/
def ledger (m : Monitor α) : Ledger α := ⟨m.config.failureThreshold, m.table, m.failures⟩

/-- The ping whose reply the probe of a number waits for. -/
def awaits (m : Monitor α) (serial : Nat) : Option (Contact α × Request) :=
  (m.probe? serial).bind Probe.awaits

/-! ## What the monitor does -/

/-- The monitor after a message, before a probe of the stalest contact is started. -/
def noted (m : Monitor α) (c : Contact α) : Monitor α :=
  { m with
    failures := m.failures.erase c.id
    refreshing := m.refreshing.erase c.id
    table := (m.table.add c).2 }

/-- What a message comes to: a contact that found its bucket full has the stalest one probed. -/
theorem heard_cases (c : Contact α) :
    ((m.table.add c).1.stalest = none ∧ (m.heard now c).2 = m.noted c) ∨
      ∃ stalest, (m.table.add c).1.stalest = some stalest ∧
        (m.heard now c).2 = (m.noted c).startProbe now stalest := by
  cases stalest : (m.table.add c).1.stalest with
  | none => exact .inl ⟨rfl, by simp only [heard, stalest, noted]⟩
  | some other => exact .inr ⟨other, rfl, by simp only [heard, stalest, noted]⟩

/-- A probe that nobody knows cannot go on. -/
theorem unknown_probe (unknown : m.probe? serial = none) (reply : Reply α) :
    m.abandon serial = m ∧ m.wake now serial = (none, m) ∧ m.pinged now serial reply = m := by
  simp only [abandon, wake, pinged, unknown, and_self]

variable {m serial} {p : Probe α}

/-- A probe that is known can be abandoned. -/
theorem abandon_known (known : m.probe? serial = some p) :
    m.abandon serial = (m.dropProbe serial).settled p.contact.id := by
  simp only [abandon, known]

/-- What the end of a delay comes to: the probe ends if nothing is left to settle, and asks for its
ping otherwise. -/
theorem wake_cases (known : m.probe? serial = some p) :
    (m.isRefreshing p.contact.id = false ∧ m.wake now serial = (none, m.dropProbe serial)) ∨
      (m.isRefreshing p.contact.id = true ∧ m.table.contains p.contact.id = false ∧
        m.wake now serial = (none, m.abandon serial)) ∨
      (m.isRefreshing p.contact.id = true ∧ m.table.contains p.contact.id = true ∧
        m.wake now serial = (some ⟨p.contact, .ping, some m.config.pingTimeout⟩,
          { m with probes :=
              (m.dropProbe serial).probes ++ [{ p with phase := .pinging, since := now }] })) := by
  cases waiting : m.isRefreshing p.contact.id with
  | false => exact .inl ⟨rfl, by simp [wake, known, waiting]⟩
  | true =>
    cases stored : m.table.contains p.contact.id with
    | false => exact .inr (.inl ⟨rfl, rfl, by simp [wake, known, waiting, stored]⟩)
    | true => exact .inr (.inr ⟨rfl, rfl, by simp [wake, known, waiting, stored]⟩)

/-- What the end of the ping of a probe comes to. -/
theorem pinged_cases (known : m.probe? serial = some p) (reply : Reply α) :
    (∃ contacts, reply = .ok contacts ∧
        m.pinged now serial reply = ((m.dropProbe serial).heard now p.contact).2) ∨
      (reply = .error .cancelled ∧ m.pinged now serial reply = m.abandon serial) ∨
      (∃ fault, reply = .error fault ∧ fault.isCancelled = false ∧
        m.pinged now serial reply = { (m.dropProbe serial).settled p.contact.id with
          table := (m.table.remove p.contact.id).2
          failures := m.failures.erase p.contact.id }) := by
  unfold pinged
  simp only [known]
  cases reply with
  | ok contacts => exact .inl ⟨contacts, rfl, rfl⟩
  | error fault =>
    cases fault with
    | cancelled => exact .inr (.inl ⟨rfl, rfl⟩)
    | timeout => exact .inr (.inr ⟨_, rfl, rfl, rfl⟩)
    | unreachable node => exact .inr (.inr ⟨_, rfl, rfl, rfl⟩)
    | rpc reason => exact .inr (.inr ⟨_, rfl, rfl, rfl⟩)
    | invalidConfig reason => exact .inr (.inr ⟨_, rfl, rfl, rfl⟩)
    | malformed error => exact .inr (.inr ⟨_, rfl, rfl, rfl⟩)

/-! ## The ledger -/

variable (m serial)

/-- Starting a probe leaves the ledger as it is. -/
@[simp]
theorem ledger_startProbe (c : Contact α) : (m.startProbe now c).ledger = m.ledger := by
  unfold startProbe
  split <;> rfl

/-- A message is news of its sender. -/
@[simp]
theorem ledger_heard (c : Contact α) :
    (m.heard now c).2.ledger = m.ledger.learn (.alive c) := by
  rcases m.heard_cases now c with ⟨-, heard⟩ | ⟨stalest, -, heard⟩
  · rw [heard]
    rfl
  · rw [heard, ledger_startProbe]
    rfl

/-- A failure is news of the node asked. -/
@[simp]
theorem ledger_requestFailed (id : Id) :
    (m.requestFailed id).2.ledger = m.ledger.learn (.failed id) := by
  simp only [requestFailed, Ledger.learn]
  by_cases own : id = m.table.home
  · rw [if_pos own, if_pos (show id = m.ledger.table.home from own)]
  · rw [if_neg own, if_neg (show ¬id = m.ledger.table.home from own)]
    by_cases few : m.failureCount id + 1 < m.config.failureThreshold
    · rw [if_pos few, if_pos (show m.ledger.count id + 1 < m.ledger.threshold from few)]
      rfl
    · rw [if_neg few, if_neg (show ¬m.ledger.count id + 1 < m.ledger.threshold from few)]
      rfl

/-- Ending a probe leaves the ledger as it is. -/
@[simp]
theorem ledger_abandon : (m.abandon serial).ledger = m.ledger := by
  unfold abandon
  split <;> rfl

/-- The end of a delay leaves the ledger as it is. -/
@[simp]
theorem ledger_wake : (m.wake now serial).2.ledger = m.ledger := by
  cases known : m.probe? serial with
  | none => rw [(m.unknown_probe now serial known (.ok [])).2.1]
  | some p =>
    rcases wake_cases now known with ⟨-, woken⟩ | ⟨-, -, woken⟩ | ⟨-, -, woken⟩
    · rw [woken]
      rfl
    · rw [woken]
      exact ledger_abandon ..
    · rw [woken]
      rfl

/-- The end of the ping of a probe is news of its contact. -/
theorem ledger_pinged {p : Probe α} (known : m.probe? serial = some p) (reply : Reply α) :
    (m.pinged now serial reply).ledger = m.ledger.learnAll (News.ofProbe p.contact reply) := by
  rcases pinged_cases now known reply with ⟨contacts, rfl, ended⟩ | ⟨rfl, ended⟩ |
    ⟨fault, rfl, kept, ended⟩
  · rw [ended, ledger_heard]
    rfl
  · rw [ended, ledger_abandon]
    rfl
  · rw [ended, News.ofProbe, kept]
    rfl

/-! ## The pings under way -/

/-- A probe that has just been started waits for no reply. -/
@[simp]
theorem awaits_startProbe (c : Contact α) : (m.startProbe now c).awaits = m.awaits := by
  funext serial
  unfold startProbe
  split
  · rfl
  · simp only [awaits, probe?, List.find?_append]
    cases m.probes.find? fun p => decide (p.serial = serial) with
    | some p => rfl
    | none =>
      rw [Option.none_or, List.find?_singleton]
      split <;> rfl

/-- A message leaves the pings under way as they are. -/
@[simp]
theorem awaits_heard (c : Contact α) : (m.heard now c).2.awaits = m.awaits := by
  rcases m.heard_cases now c with ⟨-, heard⟩ | ⟨stalest, -, heard⟩
  · rw [heard]
    rfl
  · rw [heard, awaits_startProbe]
    rfl

/-- A failure leaves the pings under way as they are. -/
@[simp]
theorem awaits_requestFailed (id : Id) : (m.requestFailed id).2.awaits = m.awaits := by
  unfold requestFailed
  split
  · rfl
  · dsimp only
    split <;> rfl

/-- A probe that has ended is not to be found. -/
theorem probe?_dropProbe (other : Nat) :
    (m.dropProbe serial).probe? other = if other = serial then none else m.probe? other := by
  unfold probe? dropProbe
  rw [List.find?_filter]
  split
  · next same =>
    rw [List.find?_eq_none]
    rintro p - found
    simp [same] at found
  · next different =>
    congr 1
    funext p
    by_cases hit : p.serial = other
    · simp [hit, different]
    · simp [hit]

/-- A probe that has ended waits for no reply. -/
theorem awaits_dropProbe :
    (m.dropProbe serial).awaits = Function.update m.awaits serial none := by
  funext other
  rw [awaits, probe?_dropProbe, Function.update_apply]
  split <;> rfl

/-- A probe that nobody knows waits for no reply. -/
theorem awaits_unknown (unknown : m.probe? serial = none) :
    m.awaits = Function.update m.awaits serial none := by
  have nothing : m.awaits serial = none := by rw [awaits, unknown, Option.bind_none]
  rw [← nothing, Function.update_eq_self]

/-- A probe that has ended without a verdict waits for no reply. -/
theorem awaits_abandon : (m.abandon serial).awaits = Function.update m.awaits serial none := by
  cases known : m.probe? serial with
  | none =>
    rw [(m.unknown_probe 0 serial known (.ok [])).1]
    exact m.awaits_unknown serial known
  | some p =>
    rw [abandon_known known]
    exact m.awaits_dropProbe serial

/-- A probe whose ping has ended waits for no reply. -/
theorem awaits_pinged (reply : Reply α) :
    (m.pinged now serial reply).awaits = Function.update m.awaits serial none := by
  cases known : m.probe? serial with
  | none =>
    rw [(m.unknown_probe now serial known reply).2.2]
    exact m.awaits_unknown serial known
  | some p =>
    rcases pinged_cases now known reply with ⟨-, -, ended⟩ | ⟨-, ended⟩ | ⟨-, -, -, ended⟩
    · rw [ended, awaits_heard]
      exact m.awaits_dropProbe serial
    · rw [ended]
      exact m.awaits_abandon serial
    · rw [ended]
      exact m.awaits_dropProbe serial

/-- A probe that wakes waits for the reply to the ping that it asks for, if it asks for one. -/
theorem awaits_wake : (m.wake now serial).2.awaits =
    Function.update m.awaits serial ((m.wake now serial).1.map Call.question) := by
  cases known : m.probe? serial with
  | none =>
    rw [(m.unknown_probe now serial known (.ok [])).2.1]
    exact m.awaits_unknown serial known
  | some p =>
    rcases wake_cases now known with ⟨-, woken⟩ | ⟨-, -, woken⟩ | ⟨-, -, woken⟩
    · rw [woken]
      exact m.awaits_dropProbe serial
    · rw [woken]
      exact m.awaits_abandon serial
    · have number : p.serial = serial := by simpa using List.find?_some known
      rw [woken]
      funext other
      have dropped := m.probe?_dropProbe serial other
      simp only [awaits, probe?, List.find?_append] at dropped ⊢
      rw [dropped, Function.update_apply]
      split
      · next same => simp [same, number, Probe.awaits, Call.question]
      · next different =>
        have apart : ¬serial = other := fun same => different same.symm
        simp [awaits, probe?, number, apart]

end Monitor

end Overlay
