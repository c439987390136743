import Handover.Agent.Name
import Handover.Event
/-!
# Note — what a run says about itself

Every step that matters leaves a note: a level, a sentence, and the numbers that go with it as `name=value` pairs.
-/
namespace Handover

inductive Note where
  | starting (config : Config)
  | spawned (agents : Nat)
  | gateOpened (proceed : Bool)
  | startAborted (agent : AgentName)
  | phaseChanged (source target : Phase)
  | moved (event : Event)
  | notified (event : Event) (watcher : Nat)
  | failed (produced consumed : Nat)
  | producerStopped (producer produced : Nat)
  | consumerStopped (consumed : Nat)
  | watcherStopped (watcher : Nat)
  | producersJoined
  deriving DecidableEq, Repr

/-- The note as one line: level, sentence, numbers. -/
def Note.text : Note → String
  | starting c =>
    s!"INFO starting run capacity={c.capacity} producers={c.producers} " ++
      s!"items_per_producer={c.itemsPerProducer} total_items={c.totalItems}"
  | spawned agents => s!"DEBUG agents spawned threads={agents}"
  | gateOpened proceed => s!"DEBUG start gate opened proceed={proceed}"
  | startAborted .consumer => "DEBUG start aborted"
  | startAborted (.watcher id) => s!"DEBUG start aborted watcher={id}"
  | startAborted (.producer id) => s!"DEBUG start aborted producer={id}"
  | phaseChanged source target => s!"DEBUG phase transition from={source.name} to={target.name}"
  | moved event => s!"INFO {event.text}"
  | notified event watcher => s!"INFO {event.text} watcher={watcher}"
  | failed produced consumed => s!"WARN agent failed, releasing the others produced={produced} consumed={consumed}"
  | producerStopped producer produced => s!"DEBUG run failed, stopping producer={producer} produced={produced}"
  | consumerStopped consumed => s!"DEBUG run failed, stopping consumed={consumed}"
  | watcherStopped watcher => s!"DEBUG run failed, no completion watcher={watcher}"
  | producersJoined => "DEBUG all producers joined"

end Handover
