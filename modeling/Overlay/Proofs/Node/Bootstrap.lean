import Mathlib.Data.List.Forall2
import Overlay.Proofs.Bootstrap
import Overlay.Proofs.Node.Home

/-!
# Bootstraps of a node

A bootstrap of a node goes on in turns and from phase to phase, among all that the node does
besides. What it has had to do with others and the phases that it has passed to say what it has
achieved: how many pings have been answered, that the lookup of the own identifier has found the
node itself first, and which buckets have been refreshed.
-/
namespace Overlay

variable {α : Type}

/-- Milliseconds that a call may take. -/
def Config.timeout (config : Config) : Request → Nat
  | .ping => config.pingTimeout
  | .find _ => config.requestTimeout

namespace NodeRun

/-- The errand of an index is this bootstrap. -/
def Boots (r : NodeRun α) (index : Nat) (b : Bootstrap α) : Prop :=
  ∃ e, r.errands[index]? = some e ∧ e.activity = .bootstrap b

/-- A bootstrap passes to its next phase. -/
structure Stage (α : Type) where
  /-- The node at that moment. -/
  node : Node α
  /-- The host has withdrawn the bootstrap by then. -/
  withdrawn : Bool
  /-- The bootstrap at the end of the phase before. -/
  before : Bootstrap α
  /-- The bootstrap at the beginning of the next one. -/
  after : Bootstrap α

/-- The buckets that hold a contact at that moment. -/
def Stage.leaves (stage : Stage α) : List (Region α) :=
  stage.node.table.regions.filter fun r => !r.bucket.isEmpty

/-- The phase that the bootstrap of an index passes to in a move, if it does. -/
def passes (r : NodeRun α) (index : Nat) : Move α → List (Stage α)
  | .proceed other draw =>
    match r.errands[index]? with
    | some ⟨.bootstrap b, withdrawn, _⟩ =>
      if other = index then
        (b.proceed r.node withdrawn draw).toList.map fun next => ⟨r.node, withdrawn, b, next⟩
      else []
    | _ => []
  | _ => []

/-- The phases that the bootstrap of an index passes to in some moves. -/
def stages (r : NodeRun α) (index : Nat) : List (Move α) → List (Stage α)
  | [] => []
  | m :: moves => r.passes index m ++ (r.move m).2.stages index moves

/-- What a move comes to for a bootstrap: what it has to do with others, the phase that it passes
to, the calls that its lines wait for, and what becomes of it. -/
inductive Advances (r : NodeRun α) (m : Move α) (index : Nat) (e : Errand α) (b : Bootstrap α) :
    List (Event α) → List (Stage α) → (Nat → Option (Call α)) → Bootstrap α → Prop where
  /-- Nothing happens to it: its line cannot take the turn that it is given, and it cannot pass to
  its next phase. -/
  | rest :
    (∀ line reply, m = .turn index line reply → line < b.lines →
      (e.due line reply).isSome = (e.calls line).isSome →
      b.turn r.node r.now e.withdrawn line (e.due line reply) = none) →
    (∀ draw, m = .proceed index draw → b.proceed r.node e.withdrawn draw = none) →
    Advances r m index e b [] [] e.calls b
  /-- One of its lines takes a turn, with a reply if the line has made a call. -/
  | turned {line : Nat} {reply : Option (Reply α)} {t : Turn α (Bootstrap α)} :
    (e.due line reply).isSome = (e.calls line).isSome →
    b.turn r.node r.now e.withdrawn line (e.due line reply) = some t →
    Advances r m index e b
      (replied index line e reply ++ t.call.toList.map (.called (.errand index line))) []
      (Function.update e.calls line t.call) t.next
  /-- It passes to its next phase. -/
  | proceeded {draw : Id} {next : Bootstrap α} :
    b.proceed r.node e.withdrawn draw = some next →
    Advances r m index e b [] [⟨r.node, e.withdrawn, b, next⟩] e.calls next

/-- The event is the answer to a ping on this line. -/
def Event.answers (index line : Nat) : Event α → Bool
  | .returned (.errand other at') call (.ok _) _ =>
    decide (other = index) && decide (at' = line) && decide (call.request = .ping)
  | _ => false

/-- The ping on this line has been answered. -/
def answered (index : Nat) (events : List (Event α)) (line : Nat) : Bool :=
  events.any (Event.answers index line)

section Moves

variable {r : NodeRun α} {m : Move α} {index line : Nat} {e : Errand α} {b : Bootstrap α}

/-- What a move comes to for the bootstrap of an index. -/
theorem errand_advances (here : r.errands[index]? = some e) (boots : e.activity = .bootstrap b)
    (m : Move α) : ∃ after next, (r.move m).2.errands[index]? = some after ∧
      after.activity = .bootstrap next ∧
      r.Advances m index e b (journal index (r.move m).1) (r.passes index m) after.calls next := by
  obtain ⟨activity, withdrawn, calls⟩ := e
  dsimp only at boots
  subst boots
  obtain ⟨after, there, goes⟩ := errand_goes here m
  generalize journal index (r.move m).1 = events at goes
  refine ⟨after, ?_⟩
  cases goes with
  | rest _ same still idle stays =>
    have stays' (draw : Id) (given : m = .proceed index draw) :
        b.proceed r.node withdrawn draw = none := Option.map_eq_none_iff.mp (stays draw given)
    have none : r.passes index m = [] := by
      cases m with
      | proceed other draw =>
        simp only [passes, here]
        split
        · next own =>
          subst own
          rw [stays' draw rfl]
          rfl
        · rfl
      | _ => rfl
    rw [none, still]
    exact ⟨b, there, same, .rest (fun line reply given inside answered =>
      Option.map_eq_none_iff.mp (idle line reply given inside answered)) stays'⟩
  | turned given inside answered made =>
    obtain ⟨t, moved, rfl⟩ := Option.map_eq_some_iff.mp made
    subst given
    exact ⟨t.next, there, rfl, .turned answered moved⟩
  | @proceeded draw _ given made =>
    obtain ⟨next, moved, rfl⟩ := Option.map_eq_some_iff.mp made
    subst given
    have passed : r.passes index (.proceed index draw) = [⟨r.node, withdrawn, b, next⟩] := by
      simp only [passes, here, if_pos, moved]
      rfl
    rw [passed]
    exact ⟨next, there, rfl, .proceeded moved⟩

/-- A reply that comes is one to the call of the line. -/
theorem of_mem_replied {reply : Option (Reply α)} {event : Event α}
    (member : event ∈ replied index line e reply) :
    ∃ call came, e.calls line = some call ∧ reply = some came ∧
      event = .returned (.errand index line) call came e.withdrawn := by
  unfold replied at member
  split at member
  · next call came made => exact ⟨call, came, made, rfl, List.mem_singleton.mp member⟩
  · cases member

/-- A ping answered later is answered. -/
theorem answered_append (index : Nat) (events later : List (Event α)) (line : Nat) :
    answered index (events ++ later) line =
      (answered index events line || answered index later line) :=
  List.any_append ..

/-- Nothing but the answer to a ping on a line answers it. -/
theorem answered_turned {reply : Option (Reply α)} {other : Nat} (call : Option (Call α))
    (foreign : ∀ made came, e.calls line = some made → reply = some (.ok came) → other = line →
      made.request ≠ .ping) :
    answered index (replied index line e reply ++ call.toList.map (.called (.errand index line)))
      other = false := by
  refine List.any_eq_false.mpr fun event member => ?_
  rcases List.mem_append.mp member with returned | called
  · obtain ⟨made, came, waits, given, rfl⟩ := of_mem_replied returned
    cases came with
    | ok contacts =>
      by_cases own : line = other
      · simp [Event.answers, foreign made contacts waits given own.symm]
      · simp [Event.answers, own]
    | error fault => exact Bool.false_ne_true
  · obtain ⟨_, -, rfl⟩ := List.mem_map.mp called
    exact Bool.false_ne_true

end Moves

/-! ## Calls -/

/-- What a bootstrap has had to do with others: every reply was one to a call, every call had its
time limit, its pings were those of the contacts to start from, and the calls under way have been
made. -/
structure Dealt (config : Config) (entries : List (Contact α)) (index : Nat)
    (events : List (Event α)) (calls : Nat → Option (Call α)) : Prop where
  /-- The calls under way have been made. -/
  pending : ∀ line call, calls line = some call → .called (.errand index line) call ∈ events
  /-- A call has been made before its reply came. -/
  replies : ∀ line call came fired, .returned (.errand index line) call came fired ∈ events →
    .called (.errand index line) call ∈ events
  /-- Every call had its time limit. -/
  limits : ∀ line call, .called (.errand index line) call ∈ events →
    call.limit = some (config.timeout call.request)
  /-- Each line has pinged its own contact only. -/
  pings : ∀ line call, .called (.errand index line) call ∈ events → call.request = .ping →
    entries[line]? = some call.callee

/-- A call that a bootstrap of these contacts may make on this line. -/
def Fitting (config : Config) (entries : List (Contact α)) (line : Nat) (call : Call α) : Prop :=
  call.limit = some (config.timeout call.request) ∧
    (call.request = .ping → entries[line]? = some call.callee)

section Dealt

variable {config : Config} {entries : List (Contact α)} {index line : Nat}
  {events : List (Event α)} {e : Errand α}

/-- Nothing has happened yet. -/
theorem Dealt.nothing (config : Config) (entries : List (Contact α)) (index : Nat) :
    Dealt config entries index [] fun _ => none :=
  ⟨nofun, nofun, nofun, nofun⟩

/-- A turn that makes a fitting call or none is accounted for. -/
theorem Dealt.turned (dealt : Dealt config entries index events e.calls)
    (reply : Option (Reply α)) {call : Option (Call α)}
    (fitting : ∀ made, call = some made → Fitting config entries line made) :
    Dealt config entries index
      (events ++ (replied index line e reply ++ call.toList.map (.called (.errand index line))))
      (Function.update e.calls line call) := by
  let later := replied index line e reply ++ call.toList.map (.called (.errand index line))
  -- A call has been made before, or it is the one made now.
  have called {at' : Nat} {made : Call α}
      (member : .called (.errand index at') made ∈ events ++ later) :
      .called (.errand index at') made ∈ events ∨ at' = line ∧ call = some made := by
    rcases List.mem_append.mp member with old | new
    · exact .inl old
    · rcases List.mem_append.mp new with returned | now
      · obtain ⟨_, _, -, -, same⟩ := of_mem_replied returned
        cases same
      · obtain ⟨made', listed, same⟩ := List.mem_map.mp now
        obtain ⟨origin, rfl⟩ := Event.called.inj same
        exact .inr ⟨(Origin.errand.inj origin).2.symm, Option.mem_toList.mp listed⟩
  constructor
  · intro at' made waits
    rw [Function.update_apply] at waits
    split at waits
    · next own =>
      subst own
      refine List.mem_append_right _ (List.mem_append_right _ ?_)
      exact List.mem_map_of_mem (Option.mem_toList.mpr waits)
    · exact List.mem_append_left _ (dealt.pending at' made waits)
  · intro at' made came fired member
    rcases List.mem_append.mp member with old | new
    · exact List.mem_append_left _ (dealt.replies at' made came fired old)
    · rcases List.mem_append.mp new with returned | now
      · obtain ⟨_, _, waits, -, same⟩ := of_mem_replied returned
        obtain ⟨origin, rfl, -, -⟩ := Event.returned.inj same
        obtain ⟨-, rfl⟩ := Origin.errand.inj origin
        exact List.mem_append_left _ (dealt.pending at' made waits)
      · obtain ⟨_, -, same⟩ := List.mem_map.mp now
        cases same
  · intro at' made member
    rcases called member with old | ⟨rfl, now⟩
    · exact dealt.limits at' made old
    · exact (fitting made now).1
  · intro at' made member ping
    rcases called member with old | ⟨rfl, now⟩
    · exact dealt.pings at' made old ping
    · exact (fitting made now).2 ping

end Dealt

/-! ## Phases -/

/-- The ping of a contact stands as the events say. -/
def PingStands (config : Config) (index : Nat) (events : List (Event α)) (line : Nat)
    (c : Contact α) : BootPing α → Prop
  | .unsent d => d = c ∧ answered index events line = false
  | .sent d => d = c ∧ answered index events line = false ∧
    .called (.errand index line) ⟨c, .ping, some config.pingTimeout⟩ ∈ events
  | .over online => answered index events line = online ∧
    .called (.errand index line) ⟨c, .ping, some config.pingTimeout⟩ ∈ events

/-- The contacts to start from have been pinged, and so many have answered. -/
structure Pinged (config : Config) (entries : List (Contact α)) (index : Nat)
    (events : List (Event α)) (online : Nat) : Prop where
  /-- All have been pinged, each with the time limit of a ping. -/
  asked : ∀ line c, entries[line]? = some c →
    .called (.errand index line) ⟨c, .ping, some config.pingTimeout⟩ ∈ events
  /-- Those that have answered are counted. -/
  counted : online = (List.range entries.length).countP (answered index events)

/-- The lookup of the own identifier is over and has found so many nodes, the node itself first. -/
structure Stage.Searched (home : Id) (width : Nat) (stage : Stage α) (found : Nat) : Prop where
  /-- The lookup is over. -/
  ended : ∃ run, stage.before.phase = .searching run ∧ run.isOver = true ∧
    run.lookup.target = home ∧ (run.lookup.closest.map (·.id)).head? = some home ∧
    run.lookup.closest.length = found
  /-- The node itself is among the nodes found. -/
  some : 1 ≤ found
  /-- No more are found than were looked for. -/
  few : found ≤ width
  /-- There is a bucket to be refreshed. -/
  leaves : 1 ≤ stage.leaves.length
  /-- No bucket is deeper than identifiers are long. -/
  inside : ∀ leaf ∈ stage.leaves, leaf.depth ≤ 256

/-- A lookup of an identifier of the bucket is over. -/
def Stage.Refreshed (leaf : Region α) (stage : Stage α) : Prop :=
  ∃ run left, stage.before.phase = .refreshing run left ∧ run.isOver = true ∧ run.Traced ∧
    run.lookup.target.hasStem leaf.stem leaf.depth = true

/-- A bootstrap stands as the events and the phases that it has passed to say. -/
inductive Joins (home : Id) (config : Config) (entries : List (Contact α)) (index : Nat)
    (events : List (Event α)) : List (Stage α) → Bootstrap α → Prop where
  /-- The contacts to start from are being pinged. -/
  | pinging {pings : List (BootPing α)} (length : pings.length = entries.length)
    (stand : ∀ line c ping, entries[line]? = some c → pings[line]? = some ping →
      PingStands config index events line c ping) :
    Joins home config entries index events [] ⟨⟨entries.length, 0, 0, 0⟩, .pinging pings⟩
  /-- The own identifier is being looked up. -/
  | searching {first : Stage α} {online : Nat} {run : LookupRun α}
    (pinged : Pinged config entries index events online) (homely : run.Homely home config.k) :
    Joins home config entries index events [first]
      ⟨⟨entries.length, online, 0, 0⟩, .searching run⟩
  /-- One of the buckets is being refreshed, those before it have been. -/
  | refreshing {first searched : Stage α} {refreshes : List (Stage α)}
    {done left : List (Region α)} {leaf : Region α} {online found : Nat} {run : LookupRun α}
    (pinged : Pinged config entries index events online)
    (lookedUp : searched.Searched home config.k found)
    (split : searched.leaves = done ++ leaf :: left)
    (refreshed : List.Forall₂ Stage.Refreshed done refreshes) (traced : run.Traced)
    (stem : run.lookup.target.hasStem leaf.stem leaf.depth = true) :
    Joins home config entries index events (first :: searched :: refreshes)
      ⟨⟨entries.length, online, found, refreshes.length⟩, .refreshing run left⟩
  /-- All has been done. -/
  | joined {first searched : Stage α} {refreshes : List (Stage α)} {report : BootReport}
    (boot : report.boot = entries.length)
    (pinged : Pinged config entries index events report.online)
    (lookedUp : searched.Searched home config.k report.found)
    (refreshed : List.Forall₂ Stage.Refreshed searched.leaves refreshes)
    (counted : report.refreshed = refreshes.length) :
    Joins home config entries index events (first :: searched :: refreshes)
      ⟨report, .finished (.ok report)⟩
  /-- The bootstrap has been withdrawn. -/
  | withdrawn {stages : List (Stage α)} {report : BootReport} :
    Joins home config entries index events stages ⟨report, .finished (.error .cancelled)⟩

section Joins

variable {home : Id} {config : Config} {entries : List (Contact α)} {index line : Nat}
  {events later : List (Event α)} {e : Errand α} {b : Bootstrap α} {online : Nat}

/-- What has been counted stays so as long as no ping is answered. -/
theorem Pinged.append (pinged : Pinged config entries index events online)
    (silent : ∀ line, answered index later line = false) :
    Pinged config entries index (events ++ later) online where
  asked line c here := List.mem_append_left _ (pinged.asked line c here)
  counted := by
    have same : answered index (events ++ later) = answered index events := by
      funext line
      rw [answered_append, silent, Bool.or_false]
    rw [same]
    exact pinged.counted

/-- A ping that is left alone stands as before. -/
theorem PingStands.append {c : Contact α} {ping : BootPing α}
    (stands : PingStands config index events line c ping)
    (silent : answered index later line = false) :
    PingStands config index (events ++ later) line c ping := by
  have same : answered index (events ++ later) line = answered index events line := by
    rw [answered_append, silent, Bool.or_false]
  cases ping with
  | unsent d => exact ⟨stands.1, same.trans stands.2⟩
  | sent d => exact ⟨stands.1, same.trans stands.2.1, List.mem_append_left _ stands.2.2⟩
  | «over» online => exact ⟨same.trans stands.1, List.mem_append_left _ stands.2⟩

/-- When all pings are over, those answered have been counted. -/
theorem pinged_of_over {pings : List (BootPing α)} (length : pings.length = entries.length)
    (stand : ∀ line c ping, entries[line]? = some c → pings[line]? = some ping →
      PingStands config index events line c ping)
    (over' : pings.all Bootstrap.pingOver = true) :
    Pinged config entries index events (pings.filter BootPing.answered).length := by
  have stands (line : Nat) (inside : line < entries.length) :
      ∃ online, pings[line]? = some (.over online) ∧ answered index events line = online ∧
        .called (.errand index line) ⟨entries[line], .ping, some config.pingTimeout⟩ ∈ events := by
    have within : line < pings.length := length ▸ inside
    have here : pings[line]? = some pings[line] := List.getElem?_eq_getElem within
    have told := stand line entries[line] pings[line] (List.getElem?_eq_getElem inside) here
    have ended := List.all_eq_true.mp over' pings[line] (List.getElem_mem within)
    cases ping : pings[line] with
    | «over» online =>
      rw [ping] at told here
      exact ⟨online, here, told⟩
    | _ =>
      rw [ping] at ended
      cases ended
  constructor
  · intro line c here
    obtain ⟨inside, rfl⟩ := List.getElem?_eq_some_iff.mp here
    obtain ⟨_, -, -, asked⟩ := stands line inside
    exact asked
  · have same : pings.map BootPing.answered =
        (List.range entries.length).map (answered index events) := by
      refine List.ext_getElem? fun line => ?_
      by_cases inside : line < entries.length
      · obtain ⟨online, here, told, -⟩ := stands line inside
        simp [here, inside, told, BootPing.answered]
      · simp [inside, length]
    have count := congrArg (List.countP id) same
    rw [List.countP_map, List.countP_map] at count
    rw [← List.countP_eq_length_filter]
    exact count

end Joins

/-! ## Turns and phases -/

section Advances

variable {home : Id} {config : Config} {entries : List (Contact α)} {index line : Nat}
  {events : List (Event α)} {passed : List (Stage α)} {e : Errand α} {b : Bootstrap α} {n : Node α}
  {now : Nat} {fired : Bool} {reply : Option (Reply α)}

/-- A lookup waits for answers to queries only. -/
theorem find_of_awaits {run : LookupRun α} {call : Call α}
    (waits : run.awaits line = some call.question) : call.request ≠ .ping := by
  obtain ⟨worker, -, asked⟩ := Option.bind_eq_some_iff.mp waits
  intro ping
  cases worker with
  | awaiting c =>
    have same : Request.find run.lookup.target = call.request :=
      congrArg Prod.snd (Option.some.inj asked)
    rw [ping] at same
    cases same
  | _ => cases asked

/-- A lookup makes queries only, each with its time limit. -/
theorem fitting_of_turn {run : LookupRun α} {t : Turn α (LookupRun α)}
    (moved : run.turn n now fired line reply = some t) {call : Call α} (made : t.call = some call) :
    Fitting n.config entries line call := by
  unfold LookupRun.turn at moved
  split at moved
  · obtain ⟨-, lookup, -, ⟨-, none⟩ | ⟨-, none⟩ | ⟨c, -, -, asks⟩⟩ :=
      LookupRun.take_cases moved
    · rw [none] at made
      cases made
    · rw [none] at made
      cases made
    · rw [asks] at made
      obtain rfl := Option.some.inj made
      exact ⟨rfl, nofun⟩
  · obtain rfl := Option.some.inj moved
    cases made
  · cases moved

/-- A call that a bootstrap makes in a turn is a fitting one. -/
theorem Joins.fitting (joins : Joins home config entries index events passed b)
    (same : n.config = config) {t : Turn α (Bootstrap α)}
    (moved : b.turn n now fired line reply = some t) {call : Call α} (made : t.call = some call) :
    Fitting config entries line call := by
  subst same
  cases joins with
  | pinging length stand =>
    rcases Bootstrap.turnPing_cases moved with ⟨c, here, rfl⟩ | ⟨_, _, -, -, rfl⟩ |
      ⟨_, _, -, -, rfl⟩
    · obtain rfl := Option.some.inj made
      have inside := (List.getElem?_eq_some_iff.mp here).1
      rw [length] at inside
      have entry : entries[line]? = some entries[line] := List.getElem?_eq_getElem inside
      have unsent := (stand line entries[line] _ entry here).1
      rw [unsent]
      exact ⟨rfl, fun _ => entry⟩
    · cases made
    · cases made
  | searching =>
    obtain ⟨inner, turned, rfl⟩ := Option.map_eq_some_iff.mp moved
    exact fitting_of_turn turned made
  | refreshing =>
    obtain ⟨inner, turned, rfl⟩ := Option.map_eq_some_iff.mp moved
    exact fitting_of_turn turned made
  | joined => cases moved
  | withdrawn => cases moved

/-- A ping that goes on stands as the events say, and the others stand as before. -/
theorem stand_set {pings : List (BootPing α)}
    (stand : ∀ line c ping, entries[line]? = some c → pings[line]? = some ping →
      PingStands config index events line c ping)
    {later : List (Event α)} {next : BootPing α}
    (silent : ∀ other ≠ line, answered index later other = false)
    (own : ∀ c, entries[line]? = some c → PingStands config index (events ++ later) line c next)
    (other : Nat) (c : Contact α) (ping : BootPing α) (entry : entries[other]? = some c)
    (there : (pings.set line next)[other]? = some ping) :
    PingStands config index (events ++ later) other c ping := by
  by_cases same : other = line
  · subst same
    have inside := (List.getElem?_eq_some_iff.mp there).1
    rw [List.length_set] at inside
    rw [List.getElem?_set_self inside] at there
    obtain rfl := Option.some.inj there
    exact own c entry
  · rw [List.getElem?_set_ne (Ne.symm same)] at there
    exact (stand other c ping entry there).append (silent other same)

/-- A turn of a ping leaves the bootstrap as the events say. -/
theorem Joins.turnPing {pings : List (BootPing α)} {report : BootReport}
    (joins : Joins home config entries index events passed ⟨report, .pinging pings⟩)
    (same : n.config = config) (waits : awaited BootPing.question pings line =
      (e.calls line).map Call.question) {t : Turn α (Bootstrap α)}
    (moved : (⟨report, .pinging pings⟩ : Bootstrap α).turnPing pings n now line
      (e.due line reply) = some t) :
    Joins home config entries index
      (events ++ (replied index line e reply ++ t.call.toList.map (.called (.errand index line))))
      passed t.next := by
  obtain ⟨length, stand⟩ := joins
  let later := replied index line e reply ++ t.call.toList.map (.called (.errand index line))
  have silent (other : Nat) (different : other ≠ line) : answered index later other = false :=
    answered_turned t.call fun _ _ _ _ own => absurd own different
  -- The call that has been made is the ping that is under way.
  have asked {c : Contact α} (here : pings[line]? = some (.sent c)) {came : Reply α}
      (due : e.due line reply = some came) :
      ∃ call, e.calls line = some call ∧ call.request = .ping ∧ reply = some came := by
    rw [awaited_eq here] at waits
    obtain ⟨call, made, question⟩ := Option.map_eq_some_iff.mp waits.symm
    rw [Errand.due, made, Option.bind_some] at due
    exact ⟨call, made, congrArg Prod.snd question, due⟩
  have stays {next : BootPing α}
      (own : ∀ c, entries[line]? = some c → PingStands config index (events ++ later) line c next) :
      Joins home config entries index (events ++ later) []
        ⟨⟨entries.length, 0, 0, 0⟩, .pinging (pings.set line next)⟩ :=
    .pinging (List.length_set.trans length) (stand_set stand silent own)
  rcases Bootstrap.turnPing_cases moved with ⟨c, here, rfl⟩ | ⟨c, contacts, here, due, rfl⟩ |
    ⟨c, fault, here, due, rfl⟩
  · refine stays fun d entry => ?_
    obtain ⟨rfl, unanswered⟩ := stand line d _ entry here
    rw [awaited_eq here] at waits
    have free : e.calls line = none := Option.map_eq_none_iff.mp waits.symm
    have quiet : answered index later line = false :=
      answered_turned _ fun made _ calls => by simp [free] at calls
    refine ⟨rfl, ?_, ?_⟩
    · rw [answered_append, unanswered, quiet, Bool.or_false]
    · rw [← same]
      exact List.mem_append_right _ (List.mem_append_right _ List.mem_cons_self)
  · obtain ⟨call, made, ping, rfl⟩ := asked here due
    refine stays fun d entry => ?_
    obtain ⟨-, -, called⟩ := stand line d _ entry here
    refine ⟨?_, List.mem_append_left _ called⟩
    have hit : answered index later line = true := by
      refine List.any_eq_true.mpr
        ⟨.returned (.errand index line) call (.ok contacts) e.withdrawn, ?_, ?_⟩
      · refine List.mem_append_left _ ?_
        simp only [replied, made, List.mem_singleton]
      · simp [Event.answers, ping]
    rw [answered_append, hit, Bool.or_true]
  · obtain ⟨call, made, ping, rfl⟩ := asked here due
    refine stays fun d entry => ?_
    obtain ⟨-, unanswered, called⟩ := stand line d _ entry here
    have quiet : answered index later line = false :=
      answered_turned _ fun _ _ _ given => by cases given
    refine ⟨?_, List.mem_append_left _ called⟩
    rw [answered_append, unanswered, quiet, Bool.or_false]

/-- A turn leaves a bootstrap as the events say. -/
theorem Joins.turned (joins : Joins home config entries index events passed b) (id : n.id = home)
    (same : n.config = config) (waits : b.awaits line = (e.calls line).map Call.question)
    {t : Turn α (Bootstrap α)} (moved : b.turn n now fired line (e.due line reply) = some t) :
    Joins home config entries index
      (events ++ (replied index line e reply ++ t.call.toList.map (.called (.errand index line))))
      passed t.next := by
  -- A lookup has no ping under way.
  have silent {run : LookupRun α} (awaits : b.awaits = run.awaits) (other : Nat) :
      answered index
        (replied index line e reply ++ t.call.toList.map (.called (.errand index line)))
        other = false := by
    refine answered_turned _ fun made came calls _ _ => ?_
    have waiting : run.awaits line = some made.question := by
      rw [← awaits, waits, calls, Option.map_some]
    exact find_of_awaits waiting
  cases joins with
  | pinging length stand => exact (Joins.pinging length stand).turnPing same waits moved
  | searching pinged homely =>
    obtain ⟨inner, turned, rfl⟩ := Option.map_eq_some_iff.mp moved
    rw [← id] at homely
    have onward := homely.turn turned
    rw [id] at onward
    exact .searching (pinged.append (silent rfl)) onward
  | refreshing pinged found split refreshed traced stem =>
    obtain ⟨inner, turned, rfl⟩ := Option.map_eq_some_iff.mp moved
    rw [← LookupRun.turn_target turned] at stem
    exact .refreshing (pinged.append (silent rfl)) found split refreshed (traced.turn turned) stem
  | joined => cases moved
  | withdrawn => cases moved

/-- A lookup of the own identifier that is over has found the node itself, and the node has a bucket
to refresh. -/
theorem searched_of_home {run : LookupRun α} {report : BootReport} {next : Bootstrap α}
    {width : Nat} (homely : run.Homely home width) (wanted : 0 < width) (ended : run.isOver = true)
    (sound : n.table.Sound) (present : n.table.contains n.id = true) :
    Stage.Searched home width ⟨n, fired, ⟨report, .searching run⟩, next⟩
      run.lookup.closest.length where
  ended := ⟨run, rfl, ended, (homely.closest wanted).1, (homely.closest wanted).2.1, rfl⟩
  some := by
    have listed := List.length_pos_of_mem (List.mem_of_mem_head? (homely.closest wanted).2.1)
    rw [List.length_map] at listed
    exact listed
  few := (homely.closest wanted).2.2
  leaves := by
    obtain ⟨leaf, member, stored⟩ := sound.exists_region present
    refine List.length_pos_of_mem (List.mem_filter.mpr ⟨member, ?_⟩)
    rw [stored]
    rfl
  inside leaf member := sound.depth_le (List.mem_filter.mp member).1

/-- The lookup that refreshes a bucket looks for an identifier of it. -/
theorem target_refreshRun (n : Node α) {leaf : Region α} (inside : leaf.depth ≤ 256) (draw : Id) :
    (Bootstrap.refreshRun n leaf draw).lookup.target.hasStem leaf.stem leaf.depth = true := by
  have aimed := (LookupRun.Accounts.ofSeeds (leaf.stem.withStem leaf.depth draw)
    (n.lookupWidth none) n.config.patience n.config.alpha
    (n.seeds (leaf.stem.withStem leaf.depth draw) (n.lookupWidth none))).aimed
  have target : (Bootstrap.refreshRun n leaf draw).lookup.target =
      leaf.stem.withStem leaf.depth draw := aimed
  rw [target]
  exact leaf.stem.hasStem_withStem inside draw

/-- The buckets that are left are refreshed one after the other. -/
theorem joins_refreshNext {first searched : Stage α} {refreshes : List (Stage α)}
    {done left : List (Region α)} {report : BootReport} (boot : report.boot = entries.length)
    (pinged : Pinged config entries index events report.online)
    (found : searched.Searched home config.k report.found)
    (split : searched.leaves = done ++ left)
    (refreshed : List.Forall₂ Stage.Refreshed done refreshes)
    (counted : report.refreshed = refreshes.length) (n : Node α) (draw : Id) :
    Joins home config entries index events (first :: searched :: refreshes)
      (Bootstrap.refreshNext n report left draw) := by
  cases left with
  | nil =>
    rw [List.append_nil] at split
    rw [← split] at refreshed
    exact .joined boot pinged found refreshed counted
  | cons leaf later =>
    obtain ⟨_, online, count, _⟩ := report
    dsimp only at boot counted
    subst boot counted
    have member : leaf ∈ searched.leaves := by
      rw [split]
      exact List.mem_append_right _ List.mem_cons_self
    exact .refreshing pinged found split refreshed ⟨n, _, _, [], rfl⟩
      (target_refreshRun n (found.inside leaf member) draw)

/-- A new phase leaves a bootstrap as the events and the phases before say. -/
theorem Joins.proceeded (joins : Joins home config entries index events passed b)
    (id : n.id = home) (same : n.config = config) (room : 0 < config.k) (sound : n.table.Sound)
    (present : n.table.contains n.id = true) {next : Bootstrap α} {draw : Id}
    (moved : b.proceed n fired draw = some next) :
    Joins home config entries index events (passed ++ [⟨n, fired, b, next⟩]) next := by
  have width : n.lookupWidth none = config.k := by
    rw [Node.lookupWidth, Option.getD_none, same]
    exact Nat.max_eq_right room
  rcases Bootstrap.proceed_phases moved with ⟨-, rfl⟩ | ⟨-, ⟨pings, phase, ended, rfl⟩ |
    ⟨run, phase, ended, rfl⟩ | ⟨run, left, phase, ended, rfl⟩⟩
  · exact .withdrawn
  · cases joins with
    | pinging length stand =>
      obtain rfl := BootPhase.pinging.inj phase
      have homely := LookupRun.Homely.start sound present (width ▸ room)
      rw [width, id] at homely
      rw [List.nil_append, width, id]
      exact .searching (pinged_of_over length stand ended) homely
    | _ => cases phase
  · cases joins with
    | @searching first online search pinged homely =>
      obtain rfl := BootPhase.searching.inj phase
      exact joins_refreshNext rfl pinged (searched_of_home homely room ended sound present)
        (List.nil_append _).symm .nil rfl n draw
    | _ => cases phase
  · cases joins with
    | @refreshing first searched refreshes done rest leaf online found search pinged lookedUp split
        refreshed traced stem =>
      obtain ⟨rfl, rfl⟩ := BootPhase.refreshing.inj phase
      have whole : searched.leaves = (done ++ [leaf]) ++ rest := by
        rw [split, List.append_assoc, List.singleton_append]
      refine joins_refreshNext rfl pinged lookedUp whole ?_ ?_ n draw
      · exact List.rel_append refreshed (.cons ⟨search, rest, rfl, ended, traced, stem⟩ .nil)
      · show refreshes.length + 1 = (refreshes ++ [_]).length
        rw [List.length_append, List.length_singleton]
    | _ => cases phase

end Advances

end NodeRun

end Overlay
