import Bsg.Foundations.JsonStruct

/-!
# The Redis queues

`queue/redis_queue.go`, which worker-service repeats in `redis_queue.go`: a FIFO queue in a Redis
list. `consume` moves a message to a processing list, so that it survives a crash of its consumer;
`ack` drops it from there, `requeue` puts it back at the end of the queue, and `recover` returns
what a crash left behind. A message is a text (see `Bsg.Foundations.Json`).
-/

namespace Bsg.Central

/-- A message: the text of a JSON document, or any other text. -/
abbrev Payload := List Char

/-- `RedisQueue`: the queue and its processing list. -/
structure RedisQueue where
  queue : List Payload
  processing : List Payload
  deriving DecidableEq, Repr

namespace RedisQueue

/-- A queue without messages. -/
def empty : RedisQueue := ⟨[], []⟩

/-- `publish` -/
def publish (q : RedisQueue) (payload : Payload) : RedisQueue :=
  { q with queue := q.queue ++ [payload] }

/-- `consume`: the next message, or nothing when the queue is empty. -/
def consume (q : RedisQueue) : Option Payload × RedisQueue :=
  match q.queue with
  | [] => (none, q)
  | payload :: rest => (some payload, ⟨rest, q.processing ++ [payload]⟩)

/-- `ack`: drops the first such message from the processing list. -/
def ack (q : RedisQueue) (payload : Payload) : RedisQueue :=
  { q with processing := q.processing.erase payload }

/-- `requeue`: moves a consumed message back onto the queue. -/
def requeue (q : RedisQueue) (payload : Payload) : RedisQueue :=
  ⟨q.queue ++ [payload], q.processing.erase payload⟩

/-- `recover`: returns the messages that a previous run left in processing. -/
def recover (q : RedisQueue) : RedisQueue := ⟨q.queue ++ q.processing, []⟩

end RedisQueue

end Bsg.Central
