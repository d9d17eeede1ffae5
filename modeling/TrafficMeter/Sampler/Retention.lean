import TrafficMeter.Retention
import TrafficMeter.Sampler.Tick

/-!
Retention as a sampler: a tick is a pass, and its rows are those that the pass removed.
-/

namespace TrafficMeter.Compactor

def tick (c : Compactor) (now : Int) (db : Store.Database)
    (vacuum : Except StoreFault Unit := .ok ()) : Ticked Compactor :=
  let passed := c.run now db vacuum
  ⟨passed.result.map (·.rowsRemoved), passed.compactor, passed.events, passed.database⟩

end TrafficMeter.Compactor
