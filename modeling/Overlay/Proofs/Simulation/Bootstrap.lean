import Mathlib.Data.List.Forall2
import Overlay.Proofs.Schedule.Operations
import Overlay.Proofs.Simulation.Start

/-!
# The bootstrap of a network

Where every contact to start from can be reached, and sooner than a ping is given up, no ping of a
bootstrap fails. So when all nodes are bootstrapped together, every one of them reports that all
contacts it starts from are online.
-/
namespace Overlay

/-! ## Pings that do not fail -/

/-- The request reaches one of so many stations before it is given up. -/
def Flight.Sure (stations : Nat) (f : Flight) : Prop :=
  ∃ number < stations, f.landing = .station number ∧ ∃ time, f.arrives = some time ∧
    ∀ limit, f.deadline = some limit → time ≤ limit

namespace World

variable {w w' : World}

/-- The identifier is that of a station, and has not been taken offline. -/
def Reaches (w : World) (id : Id) : Prop :=
  ∃ number < w.stations.size, w.simulated.station? id = some number ∧ id ∉ w.simulated.offline

/-- The stations are patient, with pings that wait longer than a request takes, and some nodes can
be reached. -/
structure Prompt (w : World) (known : List Peer) : Prop where
  /-- The stations are patient. -/
  patient : w.Patient
  /-- Pings wait longer than a request takes. -/
  waits : ∀ number s, w.station? number = some s →
    w.simulated.latency < s.node.config.pingTimeout
  /-- These nodes can be reached. -/
  reaches : ∀ c ∈ known, w.Reaches c.id

/-- What can be reached can be reached later. -/
theorem Reaches.later {id : Id} (reaches : w.Reaches id) (later : w.Later w') :
    w'.Reaches id := by
  have registry : w'.simulated.registry = w.simulated.registry :=
    later.same (·.registry) fun _ _ => rfl
  have offline : w'.simulated.offline = w.simulated.offline := later.same (·.offline) fun _ _ => rfl
  obtain ⟨number, inside, here, online⟩ := reaches
  refine ⟨number, ?_, ?_, offline ▸ online⟩
  · rw [later.size]
    exact inside
  · rw [Simulated.station?, registry]
    exact here

/-- Stations stay prompt. -/
theorem Prompt.later {known : List Peer} (prompt : w.Prompt known) (later : w.Later w') :
    w'.Prompt known where
  patient := prompt.patient.later later
  waits number s' here := by
    obtain ⟨s, there, frame⟩ := later.exists_station here
    have config : s'.node.config = s.node.config := congrArg (·.1.config) frame
    have latency : w'.simulated.latency = w.simulated.latency :=
      later.same (·.latency) fun _ _ => rfl
    rw [config, latency]
    exact prompt.waits number s there
  reaches c listed := (prompt.reaches c listed).later later

/-- A ping of a node that can be reached is sure to do so. -/
theorem Prompt.sure_send {known : List Peer} (prompt : w.Prompt known) {c : Peer}
    (listed : c ∈ known) {number : Nat} {s : Station} (here : w.station? number = some s)
    (caller : Peer) :
    (w.send caller ⟨c, .ping, some s.node.config.pingTimeout⟩).1.Sure w.stations.size := by
  obtain ⟨callee, inside, registered, online⟩ := prompt.reaches c listed
  have there : w.station? callee = some w.stations[callee] := Array.getElem?_eq_getElem inside
  have runs : w.runs callee = true := by
    rw [World.runs, there]
    exact Bool.or_eq_true_iff.mpr (.inl (prompt.patient.stations callee _ there).1)
  have reached : w.reach? c.id = some callee := reach?_eq_some_iff.mpr ⟨registered, runs, online⟩
  rcases send_cases prompt.patient.simulates caller ⟨c, .ping, some s.node.config.pingTimeout⟩ with
    ⟨other, found, sent⟩ | ⟨refused, -⟩
  · rw [reached] at found
    obtain rfl := Option.some.inj found
    rw [sent]
    refine ⟨callee, inside, rfl, _, rfl, fun limit given => ?_⟩
    obtain rfl := Option.some.inj given
    exact Nat.add_le_add_left (Nat.le_of_lt (prompt.waits number s here)) _
  · rw [reached] at refused
    cases refused

/-- A request that is sure to reach its station is answered when it ends. -/
theorem ok_of_sure {f : Flight} {reply : Reply String} (sure : f.Sure w.stations.size)
    (resolved : w.resolve f false = some (reply, w')) : ∃ contacts, reply = .ok contacts := by
  obtain ⟨number, inside, bound, time, arrives, limited⟩ := sure
  by_cases landed : time ≤ w.now
  · have status : f.status w.now false = .arrived := by
      rw [Flight.status, arrives]
      exact if_pos (decide_eq_true landed)
    have there : w.countDelivery.station? number = some w.stations[number] := by
      rw [countDelivery_eq, World.station?, stations_onSimulated]
      exact Array.getElem?_eq_getElem inside
    simp only [resolve, status, land, bound, handle, there, Option.some.injEq, Prod.mk.injEq]
      at resolved
    exact ⟨_, resolved.1.symm⟩
  · have under : f.status w.now false = .airborne := by
      have early : Flight.due f.deadline w.now = false := by
        cases given : f.deadline with
        | none => rfl
        | some limit =>
          have after := limited limit given
          exact decide_eq_false (by omega)
      rw [Flight.status, arrives, early]
      simp [Flight.due, landed]
    rw [resolve, under] at resolved
    cases resolved

end World

/-! ## Bootstraps that find everybody -/

/-- The ping has not failed, and will go to a contact of the list. -/
def BootPing.Fine (boot : List Peer) : BootPing String → Prop
  | .unsent c => c ∈ boot
  | .sent _ => True
  | .over online => online = true

/-- The bootstrap starts from these contacts, none of which has failed it. -/
def Bootstrap.Greets (boot : List Peer) (b : Bootstrap String) : Prop :=
  match b.phase with
  | .pinging pings => pings.length = boot.length ∧ ∀ ping ∈ pings, ping.Fine boot
  | .searching _ | .refreshing _ _ => b.report.online = boot.length
  | .finished result => ∃ report, result = .ok report ∧ report.online = boot.length

/-- The bootstrap is at its pings. -/
def Bootstrap.pings? (b : Bootstrap String) : Bool :=
  match b.phase with
  | .pinging _ => true
  | _ => false

namespace Bootstrap

variable {b next : Bootstrap String} {boot : List Peer} {n : Node String} {now line : Nat}

/-- A new bootstrap has not been failed by anybody. -/
theorem greets_start (n : Node String) : (start n).Greets n.boot := by
  refine ⟨List.length_map _, fun ping member => ?_⟩
  obtain ⟨c, listed, rfl⟩ := List.mem_map.mp member
  exact listed

/-- A turn that does not bring a fault to a ping leaves it so that nobody has failed. If it makes a
call while the bootstrap is at its pings, this is a ping of a contact to start from. -/
theorem Greets.turn (greets : b.Greets boot) {reply : Option (Reply String)}
    (answered : b.pings? = true → ∀ fault, reply ≠ some (.error fault))
    {t : Turn String (Bootstrap String)} (made : b.turn n now false line reply = some t) :
    t.next.Greets boot ∧ t.next.pings? = b.pings? ∧ (b.pings? = true → ∀ call, t.call = some call →
      ∃ c ∈ boot, call = ⟨c, .ping, some n.config.pingTimeout⟩) := by
  unfold Bootstrap.turn at made
  unfold Greets at greets
  cases phase : b.phase with
  | pinging pings =>
    simp only [phase] at made greets
    obtain ⟨length, fine⟩ := greets
    have pinging : b.pings? = true := by rw [pings?, phase]
    have set {ping : BootPing String} (good : ping.Fine boot) :
        (pings.set line ping).length = boot.length ∧
          ∀ other ∈ pings.set line ping, other.Fine boot := by
      refine ⟨List.length_set.trans length, fun other member => ?_⟩
      rcases List.mem_or_eq_of_mem_set member with old | rfl
      · exact fine other old
      · exact good
    rcases turnPing_cases made with ⟨c, here, rfl⟩ | ⟨c, contacts, here, -, rfl⟩ |
      ⟨c, fault, here, came, rfl⟩
    · have listed : c ∈ boot := fine _ (List.mem_of_getElem? here)
      refine ⟨set trivial, pinging.symm, fun _ call called => ⟨c, listed, ?_⟩⟩
      exact (Option.some.inj called).symm
    · exact ⟨set rfl, pinging.symm, fun _ call called => nomatch called⟩
    · exact absurd came (answered pinging fault)
  | searching run =>
    simp only [phase] at made greets
    obtain ⟨inner, moved, rfl⟩ := Option.map_eq_some_iff.mp made
    exact ⟨greets, by rw [pings?, pings?, phase], fun at' => by simp [pings?, phase] at at'⟩
  | refreshing run left =>
    simp only [phase] at made greets
    obtain ⟨inner, moved, rfl⟩ := Option.map_eq_some_iff.mp made
    exact ⟨greets, by rw [pings?, pings?, phase], fun at' => by simp [pings?, phase] at at'⟩
  | finished result => simp [phase] at made

/-- A bootstrap that goes on to refresh buckets keeps what it has achieved. -/
theorem greets_refreshNext (n : Node String) (report : BootReport)
    (all : report.online = boot.length) (left : List (Region String)) (draw : Id) :
    (refreshNext n report left draw).Greets boot ∧
      (refreshNext n report left draw).pings? = false := by
  cases left with
  | nil => exact ⟨⟨report, rfl, all⟩, rfl⟩
  | cons region later => exact ⟨all, rfl⟩

/-- A new phase leaves it so that nobody has failed. -/
theorem Greets.proceed (greets : b.Greets boot) {draw : Id}
    (made : b.proceed n false draw = some next) : next.Greets boot ∧ next.pings? = false := by
  unfold Greets at greets
  rcases proceed_phases made with ⟨withdrawn, -⟩ | ⟨-, ⟨pings, phase, ended, rfl⟩ |
    ⟨run, phase, -, rfl⟩ | ⟨run, left, phase, -, rfl⟩⟩
  · cases withdrawn
  · simp only [phase] at greets
    obtain ⟨length, fine⟩ := greets
    have all : pings.filter BootPing.answered = pings := by
      refine List.filter_eq_self.mpr fun ping member => ?_
      have over' := List.all_eq_true.mp ended ping member
      have good := fine ping member
      cases ping with
      | «over» online => exact good
      | _ => cases over'
    refine ⟨?_, rfl⟩
    show (pings.filter BootPing.answered).length = boot.length
    rw [all, length]
  · simp only [phase] at greets
    exact greets_refreshNext n { b.report with found := run.lookup.closest.length } greets _ draw
  · simp only [phase] at greets
    exact greets_refreshNext n { b.report with refreshed := b.report.refreshed + 1 } greets left
      draw

/-- A bootstrap that nobody has failed reports that everybody is online. -/
theorem Greets.result (greets : b.Greets boot) {result : Except Fault BootReport}
    (ended : b.result? = some result) :
    ∃ report, result = .ok report ∧ report.online = boot.length := by
  unfold result? at ended
  split at ended
  · next other phase =>
    rw [Greets, phase] at greets
    obtain rfl := Option.some.inj ended
    exact greets
  · cases ended

end Bootstrap

/-! ## Tasks that find everybody -/

namespace Task

/-- The task is a bootstrap from these contacts that nobody has failed; while it is at its pings,
they are sure to reach their stations. -/
structure Greets (stations : Nat) (boot : List Peer) (t : Task) : Prop where
  /-- Nobody withdraws it. -/
  calm : t.token = none
  /-- It belongs to a station. -/
  owned : ∃ number, t.owner = some number
  /-- It is a bootstrap that nobody has failed. -/
  bootstrap : ∃ b, t.activity = .bootstrap b ∧ b.Greets boot ∧
    (b.pings? = true → ∀ e ∈ t.flights, e.2.Sure stations)

variable {t t' : Task} {w w' : World} {line : Nat} {boot known : List Peer}

/-- A turn with what has come of the request of a line leaves it so that nobody has failed. -/
theorem Greets.turnWith (prompt : w.Prompt known) (listed : boot ⊆ known)
    (greets : t.Greets w.stations.size boot) {flights : List (Nat × Flight)}
    (fewer : flights ⊆ t.flights) {reply : Option (Reply String)}
    (answered : ∀ b, t.activity = .bootstrap b → b.pings? = true → ∀ fault,
      reply ≠ some (.error fault))
    (made : { t with flights := flights }.turnWith w line reply = some (w', t')) :
    t'.Greets w.stations.size boot := by
  obtain ⟨n, turn, here, moved, does⟩ := turnWith_cases made
  obtain ⟨calm, ⟨number, owner⟩, b, activity, good, sure⟩ := greets
  have moved : t.activity.turn n w.now (t.token.fired w.now) line reply = some turn := moved
  rw [calm, activity] at moved
  obtain ⟨inner, stepped, rfl⟩ := Option.map_eq_some_iff.mp moved
  obtain ⟨next, same, calls⟩ := good.turn (answered b activity) stepped
  rcases does with ⟨-, -, rfl⟩ | ⟨call, called, -, rfl⟩
  · exact ⟨calm, ⟨number, owner⟩, inner.next, rfl, next, fun pinging e sent =>
      sure (same ▸ pinging) e (fewer sent)⟩
  · refine ⟨calm, ⟨number, owner⟩, inner.next, rfl, next, fun pinging e sent => ?_⟩
    rcases List.mem_cons.mp sent with rfl | old
    · obtain ⟨c, member, rfl⟩ := calls (same ▸ pinging) call called
      -- The ping waits as long as the parameters of the node say, before and after the turn.
      have frame := frame_putBack here (Bootstrap.frame_turn stepped)
      simp only [node?, owner] at here
      obtain ⟨s, there, rfl⟩ := Option.map_eq_some_iff.mp here
      have prompt' := prompt.later (.of_frame frame)
      have later : w.Later ({ t with flights := flights }.putBack w inner.node) := .of_frame frame
      have stations := later.station? number
      rw [there] at stations
      obtain ⟨s', there', frame'⟩ := Option.map_eq_some_iff.mp stations
      have config : s'.node.config = s.node.config := congrArg (·.1.config) frame'
      have flies := prompt'.sure_send (listed member) there' t.caller
      rw [config, World.size_of_frame frame] at flies
      exact flies
    · exact sure (same ▸ pinging) e (fewer old)

/-- A turn leaves it so that nobody has failed. -/
theorem Greets.turn (prompt : w.Prompt known) (listed : boot ⊆ known)
    (greets : t.Greets w.stations.size boot) (made : t.turn w line = some (w', t')) :
    t'.Greets w.stations.size boot := by
  rcases turn_cases made with ⟨-, made⟩ | ⟨flight, reply, between, sent, resolved, made⟩
  · exact greets.turnWith prompt listed (List.Subset.refl _) (fun _ _ _ _ came => by cases came)
      made
  · have frame := World.frame_resolve resolved
    have size := World.size_of_frame frame
    have member : (line, flight) ∈ t.flights := by
      obtain ⟨first, last, flights, -⟩ := List.lookup_eq_some_iff.mp sent
      rw [flights]
      exact List.mem_append_right first List.mem_cons_self
    rw [← size] at greets ⊢
    refine greets.turnWith (prompt.later (.of_frame frame)) listed (List.filter_subset_self _)
      (fun b activity pinging fault came => ?_) made
    obtain ⟨calm, -, other, activity', -, sure⟩ := greets
    obtain rfl := Activity.bootstrap.inj (activity.symm.trans activity')
    rw [calm] at resolved
    have reaches := sure pinging _ member
    rw [size] at reaches
    obtain ⟨contacts, answered⟩ := World.ok_of_sure reaches resolved
    rw [answered] at came
    cases came

/-- A new phase leaves it so that nobody has failed. -/
theorem Greets.proceed {stations : Nat} (greets : t.Greets stations boot)
    (made : t.proceed w = some (w', t')) : t'.Greets stations boot := by
  obtain ⟨n, next, draw, randomness, here, moved, -, rfl⟩ := proceed_cases made
  obtain ⟨calm, owned, b, activity, good, -⟩ := greets
  rw [calm, activity] at moved
  obtain ⟨later, stepped, rfl⟩ := Option.map_eq_some_iff.mp moved
  obtain ⟨next, past⟩ := good.proceed stepped
  exact ⟨calm, owned, later, rfl, next, fun pinging => absurd pinging (by simp [past])⟩

end Task

namespace World

variable {w w' : World} {c c' : Crew} {known : List Peer} {boots : Nat → List Peer}

/-- All tasks of a crew are bootstraps that nobody has failed. -/
def Greet (boots : Nat → List Peer) (w : World) (c : Crew) : Prop :=
  ∀ (index : Nat) (t : Task), c.tasks[index]? = some t →
    t.Greets w.stations.size (boots index)

/-- A move leaves bootstraps so that nobody has failed them. -/
theorem Greet.advances (greet : w.Greet boots c) (prompt : w.Prompt known)
    (listed : ∀ index, boots index ⊆ known) (advances : w.Advances c w' c') :
    w'.Greet boots c' := by
  have placed {t t' : Task} (here : c.tasks[c.task]? = some t) (same : w'.frame = w.frame)
      (next : t'.Greets w.stations.size (boots c.task)) (index : Nat) (other : Task)
      (there : (c.tasks.setIfInBounds c.task t')[index]? = some other) :
      other.Greets w'.stations.size (boots index) := by
    rw [size_of_frame same]
    by_cases own : c.task = index
    · subst own
      have inside := (Array.getElem?_eq_some_iff.mp here).1
      rw [Array.getElem?_setIfInBounds_self_of_lt inside] at there
      exact Option.some.inj there ▸ next
    · rw [Array.getElem?_setIfInBounds_ne own] at there
      exact greet index other there
  cases advances with
  | turn here _ _ made =>
    exact placed here (Task.frame_turn made)
      ((greet _ _ here).turn prompt (listed _) made)
  | proceed here _ _ made =>
    exact placed here (Task.frame_proceed made) ((greet _ _ here).proceed made)
  | probe _ _ made =>
    intro index t here
    rw [size_of_frame (frame_turnProbes made)]
    exact greet index t here
  | passLine | passTask | again | wait => exact greet

/-- Bootstraps that nobody has failed end together with reports that everybody is online. -/
theorem Greet.reports (greet : w.Greet boots c) (ended : c.isOver = true) {index : Nat} {t : Task}
    (here : c.tasks[index]? = some t) :
    ∃ b report, t.activity = .bootstrap b ∧ b.result? = some (.ok report) ∧
      report.online = (boots index).length := by
  have finished : ∀ t ∈ c.tasks, t.activity.isOver = true := by
    rcases Bool.or_eq_true_iff.mp ended with all | any
    · exact Array.all_eq_true_iff_forall_mem.mp all
    · exfalso
      obtain ⟨t, member, failed⟩ := Array.any_eq_true'.mp any
      obtain ⟨index, there⟩ := Array.getElem?_of_mem member
      obtain ⟨-, -, b, activity, good, -⟩ := greet index t there
      rw [activity, Activity.isFailed] at failed
      split at failed
      · next fault result =>
        obtain ⟨report, real, -⟩ := good.result result
        cases real
      · cases failed
  obtain ⟨-, -, b, activity, good, -⟩ := greet index t here
  have over' := finished t (Array.mem_of_getElem? here)
  rw [activity] at over'
  obtain ⟨result, ended⟩ := Option.isSome_iff_exists.mp over'
  obtain ⟨report, rfl, all⟩ := good.result ended
  exact ⟨b, report, activity, ended, all⟩

end World

/-! ## All bootstraps together -/

/-- The task is a bootstrap that has ended with so many contacts online. -/
def Task.Reports (t : Task) (online : Nat) : Prop :=
  ∃ b report, t.activity = .bootstrap b ∧ b.result? = some (.ok report) ∧ report.online = online

/-- Everything is made of a list if everything can be made of its members. -/
theorem exists_mapM {β γ : Type} {f : β → Option γ} (items : List β)
    (each : ∀ x ∈ items, ∃ y, f x = some y) :
    ∃ made, items.mapM f = some made ∧ List.Forall₂ (fun x y => f x = some y) items made := by
  induction items with
  | nil => exact ⟨[], rfl, .nil⟩
  | cons x rest further =>
    obtain ⟨y, first⟩ := each x List.mem_cons_self
    obtain ⟨made, all, later⟩ :=
      further fun other listed => each other (List.mem_cons_of_mem _ listed)
    exact ⟨y :: made, by simp [List.mapM_cons, first, all], .cons first later⟩

namespace World

variable {w : World} {tasks : List Task}

/-- The contacts that the node of a station starts from. -/
def boots (w : World) (number : Nat) : List Peer :=
  match w.station? number with
  | some s => s.node.boot
  | none => []

/-- There is a task for every station, which bootstraps its node. -/
structure Boots (w : World) (tasks : List Task) : Prop where
  /-- There is one for every station. -/
  length : tasks.length = w.stations.size
  /-- Each is about to bootstrap the node of its station. -/
  each : ∀ {number t}, tasks[number]? = some t → ∃ s, w.station? number = some s ∧
    t = ⟨s.node.self, some number, none, .bootstrap (.start s.node), []⟩

/-- A task is made for every station. -/
theorem exists_boots (w : World) : ∃ tasks, w.Boots tasks ∧
    ((List.range w.stations.size).mapM fun number =>
      Task.ofStation w number none fun n => .bootstrap (.start n)) = some tasks := by
  obtain ⟨tasks, made, all⟩ := exists_mapM (List.range w.stations.size) fun number member =>
    ⟨_, congrArg (Option.map fun s => (⟨s.node.self, some number, none, .bootstrap (.start s.node),
      []⟩ : Task)) (Array.getElem?_eq_getElem (List.mem_range.mp member))⟩
  obtain ⟨length, each⟩ := List.forall₂_iff_get.mp all
  rw [List.length_range] at length
  refine ⟨tasks, ⟨length.symm, fun {number t} here => ?_⟩, made⟩
  obtain ⟨inside, rfl⟩ := List.getElem?_eq_some_iff.mp here
  have own := each number (by rw [List.length_range, length]; exact inside) inside
  simp only [List.get_eq_getElem, List.getElem_range] at own
  obtain ⟨s, there, same⟩ := Option.map_eq_some_iff.mp own
  exact ⟨s, there, same.symm⟩

/-- The bootstraps of all nodes begin their work together. -/
theorem Boots.works (boots : w.Boots tasks) (patient : w.Patient) :
    w.Works (.ofTasks tasks) := by
  refine works_ofTasks patient fun t member => ?_
  obtain ⟨number, here⟩ := List.getElem?_of_mem member
  obtain ⟨s, there, rfl⟩ := boots.each here
  refine ⟨rfl, ⟨number, (Array.getElem?_eq_some_iff.mp there).1, rfl⟩, rfl,
    fun run at' => (nomatch at'), fun line => ?_, fun e sent => nomatch sent⟩
  rw [Activity.awaits, Bootstrap.awaits_start]
  rfl

/-- At the beginning, nobody has failed a bootstrap. -/
theorem Boots.greet (boots : w.Boots tasks) : w.Greet w.boots (.ofTasks tasks) := by
  intro number t here
  obtain ⟨s, there, rfl⟩ := boots.each (List.getElem?_toArray ▸ here)
  refine ⟨rfl, ⟨number, rfl⟩, _, rfl, ?_, fun _ e sent => nomatch sent⟩
  rw [World.boots, there]
  exact Bootstrap.greets_start s.node

/-- At prompt stations, the bootstraps of all nodes come to their end together, each with all
contacts online that its node starts from. -/
theorem Boots.converges {known : List Peer} (boots : w.Boots tasks) (prompt : w.Prompt known)
    (listed : ∀ number, w.boots number ⊆ known) :
    ∃ w' c, Converges (fun budget => w.runCrew budget (.ofTasks tasks)) (w', c) ∧ w.Later w' ∧
      List.Forall₂ Task.Reports c.tasks.toList
        ((List.range w.stations.size).map fun number => (w.boots number).length) := by
  obtain ⟨⟨w', c⟩, enough, ran⟩ := (boots.works prompt.patient).converges
  have ran' : w.runCrew enough (.ofTasks tasks) = some (w', c) := ran enough (Nat.le_refl _)
  obtain ⟨⟨later, greet⟩, ended⟩ := runCrew_keeps
    (P := fun after c => w.Later after ∧ after.Greet w.boots c)
    (fun holds _ advances => ⟨holds.1.trans advances.later,
      holds.2.advances (prompt.later holds.1) listed advances⟩)
    ⟨.refl _, boots.greet⟩ ran'
  have size : c.tasks.size = w.stations.size := (runCrew_size ran').trans boots.length
  refine ⟨w', c, ⟨enough, ran⟩, later, List.forall₂_iff_get.mpr ⟨?_, fun number inside _ => ?_⟩⟩
  · rw [List.length_map, List.length_range, Array.length_toList, size]
  · have here : c.tasks[number]? = some (c.tasks.toList.get ⟨number, inside⟩) := by
      rw [← Array.getElem?_toList]
      exact List.getElem?_eq_getElem inside
    obtain ⟨b, report, activity, result, online⟩ := greet.reports ended here
    refine ⟨b, report, activity, result, online.trans ?_⟩
    rw [List.get_eq_getElem, List.getElem_map, List.getElem_range]

end World

namespace Simulation

/-- What is gathered step by step does not depend on what has been gathered before. -/
theorem foldlM_append {β γ ε : Type} {f : List γ → β → Except ε (List γ)}
    (step : ∀ first later x, f (first ++ later) x = (f later x).map (first ++ ·))
    (first later : List γ) (items : List β) :
    items.foldlM f (first ++ later) = (items.foldlM f later).map (first ++ ·) := by
  induction items generalizing later with
  | nil => rfl
  | cons x rest further =>
    rw [List.foldlM_cons, List.foldlM_cons, step]
    cases f later x with
    | error fault => rfl
    | ok gathered => exact further gathered

/-- The report of the first bootstrap is reported first. -/
theorem bootReports_cons {b : Bootstrap String} {report : BootReport} {t : Task}
    (activity : t.activity = .bootstrap b) (ended : b.result? = some (.ok report)) (self : Peer)
    (peers : List Peer) (tasks : List Task) :
    bootReports (self :: peers) (t :: tasks) = (bootReports peers tasks).map ([report] ++ ·) := by
  rw [bootReports, List.zip_cons_cons, List.foldlM_cons]
  simp only [activity, ended]
  refine foldlM_append (fun first later e => ?_) [report] [] (peers.zip tasks)
  split
  · split
    · exact congrArg Except.ok (List.append_assoc ..)
    · rfl
    · rfl
  · rfl

/-- Bootstraps that have all ended with a report are reported in order. -/
theorem exists_bootReports {peers : List Peer} {tasks : List Task} {counts : List Nat}
    (all : List.Forall₂ Task.Reports tasks counts) (same : peers.length = tasks.length) :
    ∃ reports, bootReports peers tasks = .ok reports ∧ reports.map (·.online) = counts := by
  induction all generalizing peers with
  | nil =>
    obtain rfl := List.length_eq_zero_iff.mp same
    exact ⟨[], rfl, rfl⟩
  | cons first _ further =>
    obtain ⟨peer, rest, rfl⟩ := List.exists_cons_of_length_eq_add_one same
    obtain ⟨b, report, activity, ended, online⟩ := first
    obtain ⟨reports, gathered, onlines⟩ := further (Nat.succ.inj same)
    refine ⟨report :: reports, ?_, by rw [List.map_cons, online, onlines]⟩
    rw [bootReports_cons activity ended, gathered]
    rfl

/-- At prompt stations, the bootstrap of all nodes together comes to its end: every node reports
that all contacts it starts from are online. -/
theorem bootstrapAll_converges {sim : Simulation} {known : List Peer}
    (prompt : sim.world.Prompt known) (size : sim.world.stations.size = sim.peers.length)
    (listed : ∀ number, sim.world.boots number ⊆ known) :
    ∃ summary later, Converges (fun budget => sim.bootstrapAll budget none) (.ok (summary, later)) ∧
      sim.Onward later ∧ summary.nodes = sim.peers.length ∧
      summary.online = total ((List.range sim.peers.length).map fun number =>
        (sim.world.boots number).length) := by
  obtain ⟨tasks, boots, made⟩ := sim.world.exists_boots
  obtain ⟨w, c, ⟨enough, ran⟩, later, all⟩ := boots.converges prompt listed
  rw [size] at made all
  have same : sim.peers.length = c.tasks.toList.length := by
    rw [all.length_eq, List.length_map, List.length_range]
  obtain ⟨reports, gathered, online⟩ := exists_bootReports all same
  refine ⟨⟨reports.length, total (reports.map (·.online)), { sim with world := w }.tableSizes⟩,
    { sim with world := w }, ⟨enough, fun budget more => ?_⟩, ⟨rfl, rfl, later⟩, ?_, ?_⟩
  · have ran : sim.world.runCrew budget (.ofTasks tasks) = some (w, c) := ran budget more
    simp only [bootstrapAll, made, Option.bind_eq_bind, Option.bind_some, ran, gathered]
  · have counted := congrArg List.length online
    rw [List.length_map, List.length_map, List.length_range] at counted
    exact counted
  · exact congrArg total online

end Simulation

end Overlay
