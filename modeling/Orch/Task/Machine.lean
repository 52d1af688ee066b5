import Orch.Task.World

namespace Orch

open Effect

/-- The service of the node a worker URL leads to. -/
def Service.worker (svc : Service) (nodeID : String) : Option Service :=
  if named : trimSpace nodeID = "" then none
  else some { svc with localNode := trimSpace nodeID, trimmed := trimSpace_trimSpace nodeID, named }

namespace World

variable {R : Runtime}

def localMachine (R : Runtime) (self : String) : Machine TaskSig (World R) where
  Choice := LocalChoice R
  perform := performLocal self

/-- The handler of a request runs as often as the client sends it. The
reply is that of the last time. -/
def serve {α : Type} (self : String) (handler : Task α) :
    List (List (LocalChoice R)) → World R → Option α → Option (World R × Option α)
  | [], w, reply => some (w, reply)
  | choices :: rest, w, _ =>
    match handler.play (localMachine R self) choices w with
    | none => none
    | some (after, reply) => serve self handler rest after (some reply)

/-- Post a request to the worker API of a node and decode the reply. -/
def executeWorker {α : Type} (svc : Service) (start : World R) (action node workloadName : String)
    (handler : Service → Task (Except Failure α)) (decode : α → DispatchResult) (c : Choice R) :
    Option (World R × Except Failure DispatchResult) :=
  let w := start.drift c.toLocalChoice
  match svc.nodeURL node, svc.worker node with
  | some _, some worker =>
    match serve worker.localNode (handler worker) c.attempts w none with
    | none => none
    | some (after, reply) =>
      let lost := Failure.wrapf (.errorf "request failed") "%s workload %q on node %q"
        [.text action, .text workloadName, .text node]
      match reply, c.delivered with
      | some (.ok value), true => some (after, .ok (decode value))
      | some (.error err), true =>
        some (after, .error (.wrapf err "%s workload %q on node %q: %s"
          [.text action, .text workloadName, .text node, .text "500"]))
      | _, _ => some (after, .error lost)
  | _, _ =>
    some (w, .error (.errorf "no worker API URL configured for node %q (set cluster.nodes.%s)"
      [.text node, .text node]))

def perform (svc : Service) (w : World R) (op : TaskOp) (c : Choice R) : Option (World R × op.Answer) :=
  match op with
  | .dispatchWorkload _ node metadata workload =>
    w.executeWorker svc "dispatch" node workload.name
      (fun worker => deployWorkerWorkload worker {} metadata workload.decoded node)
      (fun address => ⟨trimSpace address, some .running⟩) c
  | .dispatchStop _ node metadata workload =>
    w.executeWorker svc "stop" node workload.name
      (fun worker => stopWorkerWorkload worker {} metadata workload.decoded node)
      (fun _ => ⟨"", some .stopped⟩) c
  | op => w.performLocal svc.localNode op c.toLocalChoice

def machine (R : Runtime) (svc : Service) : Machine TaskSig (World R) where
  Choice := Choice R
  perform := perform svc

end World

end Orch
