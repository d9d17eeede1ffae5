import TrafficMeter.Proofs.Retention.Resuming
import TrafficMeter.Proofs.Sampler.Schedules
import TrafficMeter.Sampler.Attribution
import TrafficMeter.Sampler.Counter
import TrafficMeter.Sampler.Peer
import TrafficMeter.Sampler.Retention

/-!
The loops of the samplers. Whatever a sampler reads, its tick writes byte tables at most and tells
nothing of runs, so the log and the counters of its source are the work of its loop alone.
-/

namespace TrafficMeter

open Store

namespace Store.Action

variable {α β : Type}

/-- An action that leaves run log and guards as they are, whether it succeeds or not. -/
def Aside (action : Action α) : Prop :=
  ∀ db, (action db).2.runs = db.runs ∧ (action db).2.guards = db.guards

theorem Aside.pure (a : α) : Aside (Pure.pure a) := fun _ => ⟨rfl, rfl⟩

theorem Aside.bind {action : Action α} {next : α → Action β} (h : Aside action)
    (hnext : ∀ a, Aside (next a)) : Aside (action >>= next) := by
  intro db
  have hfirst := h db
  change (Action.bind action next db).2.runs = db.runs ∧
    (Action.bind action next db).2.guards = db.guards
  unfold Action.bind
  cases hr : action db with
  | mk result after =>
    rw [hr] at hfirst
    cases result with
    | error failure => exact hfirst
    | ok a => exact ⟨(hnext a after).1.trans hfirst.1, (hnext a after).2.trans hfirst.2⟩

end Store.Action

section Samplers

variable {σ : Type} {memory : σ} {db : Database} {events : List Event} {source : String}

theorem Untold.append {more : List Event} (h : Untold source events) (hmore : Untold source more) :
    Untold source (events ++ more) := by
  intro e he
  rcases List.mem_append.mp he with he | he
  · exact h e he
  · exact hmore e he

theorem Polled.untold {α : Type} (p : Polled α) (elapsed : Span) :
    Untold source (p.events elapsed) := by
  intro e he _ _ _
  obtain ⟨request, -, rfl⟩ := List.mem_map.mp he
  exact nofun

theorem call_aside (call : Call) (activity : String) :
    Action.Aside (.within activity call.action) := by
  intro db
  rw [Action.within_snd]
  change (call.action.run db).2.runs = db.runs ∧ (call.action.run db).2.guards = db.guards
  rcases call.run_cases db with ⟨failure, hr⟩ | ⟨-, hr⟩
  · rw [hr]
    exact ⟨rfl, rfl⟩
  · rw [hr]
    exact ⟨rfl, rfl⟩

theorem Ticked.writing_tidy (call : Call) (activity : String) (h : Untold source events) :
    (writing memory db events (.within activity call.action)).Tidy source db :=
  ⟨(call_aside call activity db).1, (call_aside call activity db).2, h⟩

theorem untold_retained (name : String) (value : ℤ) : Untold source [.retained name value] := by
  simp [Untold]

theorem CounterSampler.tick_tidy (s : CounterSampler) (now : ℤ) (elapsed : Span)
    (roster : Outcome (List String)) (poll : Polled Readings) :
    (s.tick now elapsed roster poll db).Tidy source db := by
  have hpoll : Untold source (poll.events elapsed) := poll.untold elapsed
  unfold tick
  split
  · exact Ticked.unchanged_tidy nofun
  · split
    · exact Ticked.unchanged_tidy hpoll
    · dsimp only
      split
      · exact Ticked.unchanged_tidy (hpoll.append (untold_retained _ _))
      · exact Ticked.writing_tidy (.merge _) _ (hpoll.append (untold_retained _ _))

theorem Calculator.tick_tidy (c : Calculator) (now : ℤ) (elapsed : Span) (poll : Polled Counters)
    (active : List String) : (c.tick now elapsed poll active db).Tidy source db := by
  have hpoll : Untold source (poll.events elapsed) := poll.untold elapsed
  have hdrops : ∀ dropped : ℕ, Untold source (.active active.length ::
      (if dropped = 0 then [] else [.dropped (dropReason active) dropped])) := by
    intro dropped
    split <;> simp [Untold]
  unfold tick
  dsimp only
  split
  · exact Ticked.unchanged_tidy hpoll
  · split
    · exact Ticked.unchanged_tidy hpoll
    · split
      · exact Ticked.unchanged_tidy hpoll
      · split
        · exact Ticked.unchanged_tidy (hpoll.append (hdrops _))
        · exact Ticked.writing_tidy (.merge _) _ (hpoll.append (hdrops _))

theorem PeerSampler.tick_tidy (s : PeerSampler) (now : ℤ) (elapsed : Span)
    (poll : Polled (List PeerReading)) : (s.tick now elapsed poll db).Tidy source db := by
  have hpoll : Untold source (poll.events elapsed) := poll.untold elapsed
  unfold tick
  split
  · exact Ticked.unchanged_tidy hpoll
  · dsimp only
    split
    · exact Ticked.unchanged_tidy (hpoll.append (untold_retained _ _))
    · exact Ticked.writing_tidy (.appendPeers _) _ (hpoll.append (untold_retained _ _))

theorem Retention.runStages_aside (c : Retention.Cutoffs) (stages : List Retention.Stage) :
    Action.Aside (Retention.runStages c stages) := by
  induction stages with
  | nil => exact .pure []
  | cons stage rest ih =>
    obtain ⟨activity, hstage⟩ := Retention.Stage.run_eq c stage
    refine Action.Aside.bind ?_ fun removed => ih.bind fun _ => .pure _
    rw [hstage]
    exact call_aside _ _

theorem vacuum_aside (ended : Except StoreFault Unit) : Action.Aside (.vacuum ended) := by
  intro db
  cases ended with
  | ok _ => exact ⟨rfl, rfl⟩
  | error fault => exact ⟨rfl, rfl⟩

theorem Compactor.tick_tidy (c : Compactor) (now : ℤ) (vacuum : Except StoreFault Unit) :
    (c.tick now db vacuum).Tidy source db := by
  have haside : Action.Aside (Retention.pass (.at now c.config) vacuum) := by
    rw [Retention.pass_eq]
    refine (Retention.runStages_aside _ _).bind fun removed => ?_
    split
    · exact (vacuum_aside vacuum).bind fun _ => .pure _
    · exact .pure _
  obtain ⟨hruns, hguards⟩ := haside db
  unfold tick
  rcases Action.ok_or_error (Retention.pass (.at now c.config) vacuum) db with
    ⟨outcome, done, hpass⟩ | ⟨failure, done, hpass⟩
  · rw [hpass] at hruns hguards
    rw [Retention.run_of_pass_ok hpass]
    exact ⟨hruns, hguards, by simp [Retention.events]⟩
  · rw [hpass] at hruns hguards
    rw [Retention.run_of_pass_error hpass]
    exact ⟨hruns, hguards, by simp⟩

end Samplers

def Sampler.job {σ : Type} (sampler : Sampler) (elapsed : Span)
    (tick : ℤ → σ → Database → Ticked σ) : Job σ where
  source := sampler.source
  elapsed := elapsed
  tick now memory db := some (tick now memory db)

theorem Sampler.job_logged {σ : Type} {sampler : Sampler} {elapsed : Span}
    {tick : ℤ → σ → Database → Ticked σ}
    (htidy : ∀ now memory db, (tick now memory db).Tidy sampler.source db) :
    (sampler.job elapsed tick).Logged := by
  apply Job.Tidy.logged
  rintro now memory db t ht
  cases ht
  exact htidy now memory db

/-- Every sampler's loop keeps the log and the counters of its source, whatever the sampler reads at
each second. -/
theorem sampler_loops_logged (elapsed : Span) (roster : ℤ → Outcome (List String))
    (users : ℤ → Polled Readings) (total : ℤ → Polled Counters) (active : ℤ → List String)
    (peers : ℤ → Polled (List PeerReading)) (vacuum : ℤ → Except StoreFault Unit) :
    (Sampler.traffic.job elapsed fun now (s : CounterSampler) db =>
      s.tick now elapsed (roster now) (users now) db).Logged ∧
    (Sampler.attribution.job elapsed fun now (c : Calculator) db =>
      c.tick now elapsed (total now) (active now) db).Logged ∧
    (Sampler.peers.job elapsed fun now (s : PeerSampler) db =>
      s.tick now elapsed (peers now) db).Logged ∧
    (Sampler.retention.job elapsed fun now (c : Compactor) db =>
      c.tick now db (vacuum now)).Logged := by
  refine ⟨Sampler.job_logged ?_, Sampler.job_logged ?_, Sampler.job_logged ?_,
    Sampler.job_logged ?_⟩
  · intro now s db
    exact s.tick_tidy now elapsed (roster now) (users now)
  · intro now c db
    exact c.tick_tidy now elapsed (total now) (active now)
  · intro now s db
    exact s.tick_tidy now elapsed (peers now)
  · intro now c db
    exact c.tick_tidy now (vacuum now)

end TrafficMeter
