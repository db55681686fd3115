import Overlay.Proofs.Node.Fairness

/-!
# What bootstraps achieve

However a bootstrap goes, with whatever else the node does and whatever the network answers, it has
a result sooner or later if it gets its turns. It fails if its host has withdrawn it by the time it
ends, and only then. Otherwise it ends with a report, which says how many pings have been answered,
how many nodes the lookup of the own identifier has found, and how many buckets there were when that
lookup was over, all of which have been refreshed. Bootstraps for ever end in no other way than by
being withdrawn.
-/
namespace Overlay

variable {α : Type}

/-- How the bootstrap that an errand carries out has ended. -/
def Errand.result? (e : Errand α) : Option (Except Fault BootReport) :=
  match e.activity with
  | .bootstrap b => b.result?
  | _ => none

/-- The errand is to bootstrap for ever: it is at a bootstrap that fails only if the errand is
withdrawn, it pauses, or it has been withdrawn and has ended so. -/
def Errand.Upkeeps (e : Errand α) : Prop :=
  (∃ b, e.activity = .upkeep b ∧
      ∀ fault, b.result? = some (.error fault) → fault = .cancelled ∧ e.withdrawn = true) ∨
    (∃ time, e.activity = .pause time) ∨ e.activity = .withdrawn .cancelled ∧ e.withdrawn = true

/-- An errand to bootstrap for ever that is over has been withdrawn. -/
theorem Errand.Upkeeps.withdrawn_of_isOver {e : Errand α} (upkeeps : e.Upkeeps)
    (ended : e.activity.isOver = true) :
    e.activity = .withdrawn .cancelled ∧ e.withdrawn = true := by
  rcases upkeeps with ⟨b, at', -⟩ | ⟨_, at'⟩ | withdrawn
  · rw [at'] at ended
    cases ended
  · rw [at'] at ended
    cases ended
  · exact withdrawn

namespace NodeRun

/-- The bootstrap has ended with this result, in the last of the phases that it has passed to: it
has failed if it was withdrawn by then, and it has a report otherwise. -/
def Ended (passed : List (Stage α)) (result : Except Fault BootReport) : Prop :=
  ∃ earlier last, passed = earlier ++ [last] ∧ last.after.result? = some result ∧
    (∀ stage ∈ earlier, stage.after.result? = none) ∧
    (last.withdrawn = true ∧ result = .error .cancelled ∨
      last.withdrawn = false ∧ ∃ report, result = .ok report)

/-- The bootstrap has done what its report says. -/
structure Joined (home : Id) (config : Config) (entries : List (Contact α)) (index : Nat)
    (events : List (Event α)) (passed : List (Stage α)) (report : BootReport) : Prop where
  /-- The contacts to start from are counted. -/
  boot : report.boot = entries.length
  /-- All of them have been pinged, and those that have answered are counted. -/
  pinged : Pinged config entries index events report.online
  /-- The own identifier has been looked up, and then every bucket that held a contact by then has
  been refreshed, one after the other. -/
  phases : ∃ first searched refreshes, passed = first :: searched :: refreshes ∧
    searched.Searched home config.k report.found ∧
    List.Forall₂ Stage.Refreshed searched.leaves refreshes ∧
    report.refreshed = searched.leaves.length

/-- All that is known of a bootstrap under way. -/
structure Joining (home : Id) (config : Config) (entries : List (Contact α)) (index : Nat)
    (events : List (Event α)) (passed : List (Stage α)) (calls : Nat → Option (Call α))
    (b : Bootstrap α) : Prop where
  /-- It stands as the events and the phases say. -/
  joins : Joins home config entries index events passed b
  /-- It has had to do with others as it should. -/
  dealt : Dealt config entries index events calls
  /-- None of the phases has been its end, if it goes on. -/
  going : b.result? = none → ∀ stage ∈ passed, stage.after.result? = none
  /-- The last of the phases has been its end, if it has a result. -/
  ended : ∀ result, b.result? = some result → Ended passed result

section Moves

variable {home : Id} {config : Config} {entries : List (Contact α)} {index : Nat}
  {events : List (Event α)} {passed : List (Stage α)} {r : NodeRun α} {e : Errand α}
  {b : Bootstrap α}

/-- A bootstrap that begins. -/
theorem Joining.start (home : Id) (config : Config) (index : Nat) (n : Node α) :
    Joining home config n.boot index [] [] (fun _ => none) (.start n) where
  joins := by
    refine .pinging (List.length_map _) fun line c ping here there => ?_
    rw [List.getElem?_map, here] at there
    rw [← Option.some.inj there]
    exact ⟨rfl, rfl⟩
  dealt := Dealt.nothing config n.boot index
  going _ := List.forall_mem_nil _
  ended := nofun

/-- What a move comes to for a bootstrap keeps what is known of it. -/
theorem Joining.advances {m : Move α} {later : List (Event α)} {further : List (Stage α)}
    {calls : Nat → Option (Call α)} {next : Bootstrap α}
    (joining : Joining home config entries index events passed e.calls b)
    (atHome : r.AtHome) (id : r.node.id = home) (same : r.node.config = config)
    (room : 0 < config.k) (waits : b.awaits = Option.map Call.question ∘ e.calls)
    (advances : r.Advances m index e b later further calls next) :
    Joining home config entries index (events ++ later) (passed ++ further) calls next := by
  obtain ⟨joins, dealt, going, ended⟩ := joining
  cases advances with
  | rest =>
    rw [List.append_nil, List.append_nil]
    exact ⟨joins, dealt, going, ended⟩
  | turned answered moved =>
    obtain ⟨before, after⟩ := Bootstrap.result?_turn moved
    rw [List.append_nil]
    refine ⟨joins.turned id same (congrFun waits _) moved, ?_, fun _ => going before, ?_⟩
    · exact dealt.turned _ fun made => joins.fitting same moved
    · intro result ended
      rw [after] at ended
      cases ended
  | @proceeded draw next moved =>
    obtain ⟨before, after⟩ := Bootstrap.result?_proceed moved
    rw [List.append_nil]
    have present : r.node.table.contains r.node.id = true := by
      rw [← atHome.inStep.home]
      exact atHome.housed.present
    refine ⟨joins.proceeded id same room atHome.sound.table present moved, dealt, ?_, ?_⟩
    · intro none stage member
      rcases List.mem_append.mp member with old | new
      · exact going before stage old
      · rw [List.mem_singleton.mp new]
        exact none
    · intro result ended
      exact ⟨passed, _, rfl, ended, going before, after result ended⟩

/-- Whatever is played, what is known of a bootstrap is kept. -/
theorem Joining.play (joining : Joining home config entries index events passed e.calls b)
    (atHome : r.AtHome) (id : r.node.id = home) (same : r.node.config = config)
    (room : 0 < config.k) (here : r.errands[index]? = some e) (boots : e.activity = .bootstrap b)
    (moves : List (Move α)) :
    ∃ after last, (r.play moves).2.errands[index]? = some after ∧
      after.activity = .bootstrap last ∧
      Joining home config entries index (events ++ journal index (r.play moves).1)
        (passed ++ r.stages index moves) after.calls last := by
  induction moves generalizing r e b events passed with
  | nil =>
    refine ⟨e, b, here, boots, ?_⟩
    rw [stages, List.append_nil]
    exact (List.append_nil events).symm ▸ joining
  | cons m moves further =>
    obtain ⟨next, onward, there, boots', advances⟩ := errand_advances here boots m
    have leads := atHome.inStep.move m
    have waits := (atHome.inStep.errands e (List.mem_of_getElem? here)).lines
    rw [boots] at waits
    have kept := joining.advances atHome id same room waits advances
    have own : (r.move m).2.node.id = home := (congrArg Contact.id leads.self).trans id
    have config' : (r.move m).2.node.config = config :=
      (atHome.inStep.config_play [m]).trans same
    obtain ⟨after, last, there', boots'', done⟩ :=
      further kept (atHome.move m) own config' there boots'
    refine ⟨after, last, there', boots'', ?_⟩
    rw [NodeRun.play, stages, journal_append, ← List.append_assoc, ← List.append_assoc]
    exact done

/-- A bootstrap that has ended with a report has done what the report says. -/
theorem Joins.report {report : BootReport}
    (joins : Joins home config entries index events passed b)
    (ended : b.result? = some (.ok report)) :
    Joined home config entries index events passed report := by
  cases joins with
  | joined boot pinged found refreshed counted =>
    obtain rfl := Except.ok.inj (Option.some.inj ended)
    exact ⟨boot, pinged, _, _, _, rfl, found, refreshed, counted.trans refreshed.length_eq.symm⟩
  | withdrawn => cases Option.some.inj ended
  | _ => cases ended

/-- A bootstrap that nobody withdraws has not been withdrawn at the end of any phase. -/
theorem stages_withdrawn (here : r.errands[index]? = some e) (boots : e.activity = .bootstrap b)
    (kept : e.withdrawn = false) {moves : List (Move α)} (never : .withdraw index ∉ moves) :
    ∀ stage ∈ r.stages index moves, stage.withdrawn = false := by
  induction moves generalizing r e b with
  | nil => exact List.forall_mem_nil _
  | cons m moves further =>
    rw [List.mem_cons, not_or] at never
    obtain ⟨after, next, there, boots', advances⟩ := errand_advances here boots m
    obtain ⟨same, there', becomes⟩ := errand_move here m
    obtain rfl := Option.some.inj (there.symm.trans there')
    have kept' : after.withdrawn = false := by
      cases becomes with
      | withdrawn withdraws => exact absurd withdraws.symm never.1
      | _ => exact kept
    rw [stages]
    intro stage member
    rcases List.mem_append.mp member with now | later
    · generalize journal index (r.move m).1 = events, r.passes index m = passed,
        after.calls = calls at advances now
      cases advances with
      | proceeded =>
        rw [List.mem_singleton.mp now]
        exact kept
      | _ => cases now
    · exact further there' boots' kept' never.2 stage later

/-- Whatever is played, the node starts from the same contacts. -/
theorem boot_play (inStep : r.InStep) (moves : List (Move α)) :
    (r.play moves).2.node.boot = r.node.boot := by
  induction moves generalizing r with
  | nil => rfl
  | cons m moves further => exact (further (inStep.move m).inStep).trans (boot_move inStep m)

/-- A new errand is the last one. -/
theorem wish_here (r : NodeRun α) (wish : Wish α) :
    (r.move (.wish wish)).2.errands[r.errands.length]? =
      some ⟨wish.activity r.node, false, fun _ => none⟩ :=
  List.getElem?_concat_length

/-- Whatever is played once a bootstrap has begun, this is what is known of it. -/
theorem AtHome.play_bootstrap (atHome : r.AtHome) (room : 0 < r.node.config.k)
    (moves : List (Move α)) :
    let index := r.errands.length
    let begun := (r.move (.wish .bootstrap)).2
    ∃ e b, (begun.play moves).2.errands[index]? = some e ∧ e.activity = .bootstrap b ∧
      Joining r.node.id r.node.config r.node.boot index (journal index (begun.play moves).1)
        (begun.stages index moves) e.calls b := by
  intro index begun
  have joining : Joining r.node.id r.node.config r.node.boot index [] [] (fun _ => none)
      (.start r.node) := Joining.start ..
  have here := r.wish_here .bootstrap
  exact joining.play (atHome.move (.wish .bootstrap)) rfl rfl room here rfl moves

/-- A bootstrap that gets its turns has a result sooner or later, and it is a report if nobody ever
withdraws the bootstrap. -/
theorem AtHome.bootstrap_ends (atHome : r.AtHome) (room : 0 < r.node.config.k)
    (grown : ∀ e ∈ r.errands, Grown e) {schedule : Nat → Move α}
    (fair : (r.move (.wish .bootstrap)).2.Fair r.errands.length schedule) :
    ∃ time e result,
      ((r.move (.wish .bootstrap)).2.follow schedule time).errands[r.errands.length]? = some e ∧
      e.result? = some result ∧
      ((∀ earlier, schedule earlier ≠ .withdraw r.errands.length) →
        ∃ report, result = .ok report) := by
  have here := r.wish_here .bootstrap
  have boots : ((r.move (.wish .bootstrap)).2.follow schedule 0).Boots r.errands.length
      (.start r.node) := ⟨_, here, rfl⟩
  obtain ⟨time, b, result, ⟨e, there, at'⟩, ended⟩ :=
    boots.exists_result (atHome.move (.wish .bootstrap)).inStep
      (grown_play grown [.wish .bootstrap]) fair
  refine ⟨time, e, result, there, by rw [Errand.result?, at']; exact ended, fun never => ?_⟩
  obtain ⟨_, _, there', boots', joining⟩ :=
    atHome.play_bootstrap room ((List.range time).map schedule)
  obtain rfl := Option.some.inj (there.symm.trans there')
  obtain rfl := Activity.bootstrap.inj (at'.symm.trans boots')
  obtain ⟨earlier, last, passed, -, -, ⟨withdrawn, -⟩ | ⟨-, report⟩⟩ := joining.ended result ended
  · have none : Move.withdraw r.errands.length ∉ (List.range time).map schedule := by
      simpa using fun time _ => never time
    have kept := stages_withdrawn here rfl rfl none last (passed ▸ List.mem_concat_self)
    rw [kept] at withdrawn
    cases withdrawn
  · exact report

end Moves

/-! ## Bootstraps for ever -/

section Upkeep

variable {r : NodeRun α} {index : Nat} {e : Errand α}

/-- A move keeps an errand to bootstrap for ever as it should be. -/
theorem upkeeps_move (here : r.errands[index]? = some e) (upkeeps : e.Upkeeps)
    (m : Move α) :
    ∃ after, (r.move m).2.errands[index]? = some after ∧ after.Upkeeps := by
  obtain ⟨after, there, becomes⟩ := errand_move here m
  refine ⟨after, there, ?_⟩
  cases becomes with
  | rest => exact upkeeps
  | withdrawn =>
    rcases upkeeps with ⟨b, at', faults⟩ | pause | ⟨ended, -⟩
    · exact .inl ⟨b, at', fun fault failed => ⟨(faults fault failed).1, rfl⟩⟩
    · exact .inr (.inl pause)
    · exact .inr (.inr ⟨ended, rfl⟩)
  | turned _ takes =>
    obtain ⟨due, made, -⟩ := takes.made
    rcases upkeeps with ⟨b, at', -⟩ | ⟨_, at'⟩ | ⟨at', -⟩
    · rw [at'] at made
      obtain ⟨inner, moved, rfl⟩ := Option.map_eq_some_iff.mp made
      refine .inl ⟨inner.next, rfl, fun fault failed => ?_⟩
      rw [(Bootstrap.result?_turn moved).2] at failed
      cases failed
    · rw [at'] at made
      cases made
    · rw [at'] at made
      cases made
  | @proceeded draw next _ made =>
    rcases upkeeps with ⟨b, at', faults⟩ | ⟨time, at'⟩ | ⟨at', -⟩
    · rw [at'] at made
      rcases Activity.proceed_cases made with ⟨_, later, moved, ⟨other, -⟩ | ⟨same, -, rfl⟩⟩ |
        ⟨_, fault, same, failed, rfl⟩ | ⟨_, _, same, -, rfl⟩ | ⟨_, other, -⟩
      · cases other
      · refine .inl ⟨later, rfl, fun fault failed => ?_⟩
        rcases (Bootstrap.result?_proceed moved).2 _ failed with ⟨fired, error⟩ | ⟨-, _, other⟩
        · exact ⟨Except.error.inj error, fired⟩
        · cases other
      · obtain rfl := Activity.upkeep.inj same
        obtain ⟨rfl, fired⟩ := faults fault failed
        exact .inr (.inr ⟨rfl, fired⟩)
      · exact .inr (.inl ⟨_, rfl⟩)
      · cases other
    · rw [at'] at made
      rcases Activity.proceed_cases made with ⟨_, _, -, ⟨other, -⟩ | ⟨other, -⟩⟩ |
        ⟨_, _, other, -⟩ | ⟨_, _, other, -⟩ | ⟨_, -, ⟨fired, rfl⟩ | ⟨-, -, rfl⟩⟩
      · cases other
      · cases other
      · cases other
      · cases other
      · exact .inr (.inr ⟨rfl, fired⟩)
      · exact .inl ⟨_, rfl, nofun⟩
    · rw [at'] at made
      cases made

/-- Whatever is played, an errand to bootstrap for ever is as it should be. -/
theorem upkeeps_play (here : r.errands[index]? = some e) (upkeeps : e.Upkeeps)
    (moves : List (Move α)) :
    ∃ after, (r.play moves).2.errands[index]? = some after ∧ after.Upkeeps := by
  induction moves generalizing r e with
  | nil => exact ⟨e, here, upkeeps⟩
  | cons m moves further =>
    obtain ⟨next, there, kept⟩ := upkeeps_move here upkeeps m
    exact further there kept

end Upkeep

/-! ## Any bootstrap of any node -/

/-- A bootstrap begun at any moment and carried out along with whatever else the node does. Whatever
pings and queries come to: every call has its time limit, and every reply is one to a call. The
bootstrap fails if its host has withdrawn it by the time it ends, and only then; otherwise it ends
with a report that says how many of the contacts to start from, the node itself not among them, have
answered their ping in time, how many nodes the lookup of the own identifier has found, the node
itself first, and how many buckets held a contact when that lookup was over, each of which has been
refreshed by a lookup of an identifier of it. It ends sooner or later if it gets its turns, with a
report if nobody ever withdraws it. And bootstraps for ever end only when they have been
withdrawn. -/
theorem play_bootstraps {self : Contact α} {boot : List (Contact α)} {config : Config} {n : Node α}
    (created : Node.create self boot config = .ok n) (before : List (Move α)) :
    let r := ((start n).play before).2
    let index := r.errands.length
    let entries := boot.filter fun c => c.id ≠ self.id
    let begun := (r.move (.wish .bootstrap)).2
    let forever := (r.move (.wish .upkeep)).2
    (∀ moves, let events := journal index (begun.play moves).1
      let passed := begun.stages index moves
      ∃ e, (begun.play moves).2.errands[index]? = some e ∧
        Dealt config entries index events e.calls ∧
        ∀ result, e.result? = some result → Ended passed result ∧
          ∀ report, result = .ok report →
            Joined self.id config entries index events passed report) ∧
    (∀ schedule, begun.Fair index schedule → ∃ time e result,
      (begun.follow schedule time).errands[index]? = some e ∧ e.result? = some result ∧
      ((∀ earlier, schedule earlier ≠ .withdraw index) → ∃ report, result = .ok report)) ∧
    ∀ moves, ∃ e, (forever.play moves).2.errands[index]? = some e ∧ e.Upkeeps ∧
      (e.activity.isOver = true → e.activity = .withdrawn .cancelled ∧ e.withdrawn = true) := by
  intro r index entries begun forever
  obtain ⟨fresh, own⟩ := start_atHome created
  obtain ⟨valid, built⟩ := Node.create_eq created
  have atHome : r.AtHome := (fresh.play before).1
  have id : r.node.id = self.id :=
    (congrArg Contact.id (fresh.inStep.play before).2.1).trans own
  have config' : r.node.config = config := by
    rw [fresh.inStep.config_play before, start, built]
    rfl
  have entries' : r.node.boot = entries := by
    rw [boot_play fresh.inStep before, start, built]
  have room : 0 < r.node.config.k := config' ▸ Config.k_pos valid
  refine ⟨fun moves => ?_, fun schedule fair => ?_, fun moves => ?_⟩
  · obtain ⟨e, b, there, boots, joining⟩ := atHome.play_bootstrap room moves
    rw [id, config', entries'] at joining
    refine ⟨e, there, joining.dealt, fun result ended => ?_⟩
    rw [Errand.result?, boots] at ended
    exact ⟨joining.ended result ended, fun report same => joining.joins.report (same ▸ ended)⟩
  · have grown : ∀ e ∈ r.errands, Grown e :=
      grown_play (fun e listed => absurd listed List.not_mem_nil) before
    exact atHome.bootstrap_ends room grown fair
  · have upkeeps : (⟨.upkeep (.start r.node), false, fun _ => none⟩ : Errand α).Upkeeps :=
      .inl ⟨_, rfl, fun fault failed => by cases failed⟩
    obtain ⟨e, there, kept⟩ := upkeeps_play (r.wish_here .upkeep) upkeeps moves
    exact ⟨e, there, kept, kept.withdrawn_of_isOver⟩

/-- A node that has just been created, and that starts from two contacts. -/
def newcomer : Node Unit :=
  let n := Node.bare ⟨⟨1⟩, ()⟩ { k := 2, alpha := 1 }
  { n with
    boot := [⟨⟨2⟩, ()⟩, ⟨⟨3⟩, ()⟩]
    monitor := { n.monitor with table := (n.table.add n.self).2 } }

/-- One contact answers its ping and the other one does not, and the host withdraws the errand while
the own identifier is looked up. -/
def retreat : List (Move Unit) :=
  [.turn 0 0 none, .turn 0 1 none, .turn 0 0 (some (.ok [])), .turn 0 1 (some (.error .timeout)),
    .proceed 0 ⟨0⟩, .turn 0 0 none, .withdraw 0, .turn 0 0 none, .proceed 0 ⟨0⟩, .proceed 0 ⟨0⟩]

/-- A bootstrap that is withdrawn fails, and one that no call is answered for ends with a report;
bootstraps for ever end when they are withdrawn. -/
theorem play_bootstraps_newcomer :
    Node.create ⟨⟨1⟩, ()⟩ [⟨⟨1⟩, ()⟩, ⟨⟨2⟩, ()⟩, ⟨⟨3⟩, ()⟩] { k := 2, alpha := 1 } = .ok newcomer ∧
    Ended (((start newcomer).move (.wish .bootstrap)).2.stages 0 retreat) (.error .cancelled) ∧
    (∃ time e report,
      (((start newcomer).move (.wish .bootstrap)).2.follow
        (rotation 0 (.error .timeout) ⟨0⟩) time).errands[0]? = some e ∧
      e.result? = some (.ok report) ∧ report.boot = 2 ∧ 1 ≤ report.found ∧ report.found ≤ 2 ∧
      1 ≤ report.refreshed) ∧
    ∃ e, (((start newcomer).move (.wish .upkeep)).2.play retreat).2.errands[0]? = some e ∧
      e.activity.isOver = true ∧ e.activity = .withdrawn .cancelled ∧ e.withdrawn = true := by
  have created : Node.create ⟨⟨1⟩, ()⟩ [⟨⟨1⟩, ()⟩, ⟨⟨2⟩, ()⟩, ⟨⟨3⟩, ()⟩] { k := 2, alpha := 1 } =
      .ok newcomer := rfl
  obtain ⟨outcome, ends, upkeep⟩ := play_bootstraps created []
  have withdrawn : (((start newcomer).move (.wish .bootstrap)).2.play
      retreat).2.errands[0]?.bind Errand.result? = some (.error .cancelled) := by cbv
  have finished : ((((start newcomer).move (.wish .upkeep)).2.play retreat).2.errands[0]?.map
      fun e => e.activity.isOver) = some true := by cbv
  refine ⟨created, ?_, ?_, ?_⟩
  · obtain ⟨e, here, -, said⟩ := outcome retreat
    obtain ⟨_, here', ended⟩ := Option.bind_eq_some_iff.mp withdrawn
    obtain rfl := Option.some.inj (here.symm.trans here')
    exact (said _ ended).1
  · obtain ⟨time, e, result, here, ended, reports⟩ :=
      ends _ (rotation_fair _ 0 (.error .timeout) ⟨0⟩)
    obtain ⟨report, rfl⟩ := reports fun earlier => rotation_ne_withdraw 0 _ _ earlier _
    obtain ⟨_, here', -, said⟩ := outcome ((List.range time).map (rotation 0 (.error .timeout) ⟨0⟩))
    obtain rfl := Option.some.inj (here.symm.trans here')
    obtain ⟨boot, -, _, searched, _, -, found, -, refreshed⟩ := (said _ ended).2 report rfl
    exact ⟨time, e, report, here, ended, boot, found.some, found.few, refreshed ▸ found.leaves⟩
  · obtain ⟨e, here, -, over'⟩ := upkeep retreat
    obtain ⟨_, here', ended⟩ := Option.map_eq_some_iff.mp finished
    obtain rfl := Option.some.inj (here.symm.trans here')
    exact ⟨e, here, ended, over' ended⟩

end NodeRun

end Overlay
