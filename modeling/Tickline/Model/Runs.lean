import Mathlib.Logic.Function.Basic
import Tickline.Library.Machine
import Tickline.Model.CommandPipeline

/-!
# Runs

The program's objects as machines that answer calls, so that a run is a list of calls.
A call that throws is answered by its fault, and the run goes on from whatever objects
the throw leaves.

* `World.machine`: one world and its three mutating members.
* `Exchange.machine`: one pipeline, session and world; submissions and ticks.
* `Deployment.machine`: any number of pipelines, sessions and worlds, each submission
  naming the three it uses.
-/

set_option autoImplicit false

namespace Tickline.Model

open Tickline.Library

/-- What a call came back with. -/
inductive Answer
  | added (result : AddEntityResult)
  | queued (result : QueueCommandResult)
  | advanced (tick : Tick)
  | submitted (result : CommandSubmissionResult)
  | threw (fault : Fault)
  deriving DecidableEq

/-- Whether the call returned. -/
def Answer.returned : Answer → Bool
  | .threw _ => false
  | _ => true

/-- Call a member function: the answer, and the object it leaves. -/
def Member.call {σ α : Type} (answer : α → Answer) (action : Member σ α) (s : σ) : Answer × σ :=
  match action s with
  | .ok a s' => (answer a, s')
  | .error fault s' => (.threw fault, s')

/-! ## One world -/

/-- A call of one of the mutating members of a world. -/
inductive WorldCall
  | addEntity (entity : EntityState)
  | queueVelocity (command : VelocityCommand)
  | advance
  deriving DecidableEq

/-- A world answering its calls. -/
def World.machine : Machine World WorldCall Answer where
  perform
    | .addEntity entity => Member.call .added (World.addEntity entity)
    | .queueVelocity command => Member.call .queued (World.queueVelocity command)
    | .advance => Member.call .advanced World.advance

/-- A world that some run of calls leads to from a constructed one. -/
def World.Reachable (world : World) : Prop :=
  ∃ duration limits start calls,
    World.make duration limits = .ok start ∧ World.machine.final start calls = world

/-- A call that names one entity: every mutating member but the tick. -/
inductive EntityCall
  | addEntity (entity : EntityState)
  | queueVelocity (command : VelocityCommand)
  deriving DecidableEq

/-- The entity a call names. -/
def EntityCall.entityId : EntityCall → EntityId
  | .addEntity entity => entity.id
  | .queueVelocity command => command.entityId

def EntityCall.toWorldCall : EntityCall → WorldCall
  | .addEntity entity => .addEntity entity
  | .queueVelocity command => .queueVelocity command

/-- A world between two ticks. -/
def World.entityMachine : Machine World EntityCall Answer where
  perform call := World.machine.perform call.toWorldCall

/-! ## One pipeline, session and world -/

/-- A submission to the pipeline or a tick of the world. -/
inductive ExchangeCall
  | submit (command : CommandEnvelope)
  | advance
  deriving DecidableEq

/-- An exchange answering its calls. -/
def Exchange.machine : Machine Exchange ExchangeCall Answer where
  perform
    | .submit command => Member.call .submitted (AuthoritativeCommandPipeline.submit command)
    | .advance => Member.call .advanced (Exchange.onWorld World.advance)

/-! ## Many pipelines, sessions and worlds -/

/-- Sessions named by `ι`, worlds named by `κ` and pipelines named by `π`. -/
structure Deployment (ι κ π : Type) where
  sessions : ι → CommandSession
  worlds : κ → World
  pipelines : π → AuthoritativeCommandPipeline

/-- A call to one of the objects; a submission names all three it uses. -/
inductive DeploymentCall (ι κ π : Type)
  | submit (pipeline : π) (session : ι) (world : κ) (command : CommandEnvelope)
  | addEntity (world : κ) (entity : EntityState)
  | advance (world : κ)

namespace Deployment

variable {ι κ π : Type}

/-- The three objects a submission uses. -/
def exchange (d : Deployment ι κ π) (p : π) (i : ι) (k : κ) : Exchange where
  pipeline := d.pipelines p
  session := d.sessions i
  world := d.worlds k

@[simp] theorem exchange_pipeline (d : Deployment ι κ π) (p : π) (i : ι) (k : κ) :
    (d.exchange p i k).pipeline = d.pipelines p := rfl

variable [DecidableEq κ]

/-- Put one world back. -/
def withWorld (d : Deployment ι κ π) (k : κ) (world : World) : Deployment ι κ π :=
  { d with worlds := Function.update d.worlds k world }

@[simp] theorem withWorld_pipelines (d : Deployment ι κ π) (k : κ) (world : World) :
    (d.withWorld k world).pipelines = d.pipelines := rfl

variable [DecidableEq ι] [DecidableEq π]

/-- Put the three objects of a submission back. -/
def withExchange (d : Deployment ι κ π) (p : π) (i : ι) (k : κ) (s : Exchange) :
    Deployment ι κ π where
  sessions := Function.update d.sessions i s.session
  worlds := Function.update d.worlds k s.world
  pipelines := Function.update d.pipelines p s.pipeline

/-- A deployment answering its calls. -/
def machine : Machine (Deployment ι κ π) (DeploymentCall ι κ π) Answer where
  perform
    | .submit p i k command, d =>
      let (answer, s) := Exchange.machine.perform (.submit command) (d.exchange p i k)
      (answer, d.withExchange p i k s)
    | .addEntity k entity, d =>
      let (answer, world) := World.machine.perform (.addEntity entity) (d.worlds k)
      (answer, d.withWorld k world)
    | .advance k, d =>
      let (answer, world) := World.machine.perform .advance (d.worlds k)
      (answer, d.withWorld k world)

end Deployment

end Tickline.Model
