import Stencil.Registry.Execute
import Stencil.Registry.Load

/-!
# Sessions

## Commands on a registry

A session is a registry in use.  Every use is a command; a command gets a reply, is
reported by events, and leaves a session for the next command, also if it fails.  A
command that loads files brings along what the surroundings answer.
-/

namespace Stencil

structure Session where
  registry : Registry

inductive Command where
  | add (t : Template)
  | delete (name : Text)
  | contains (name : Text)
  | execute (name : Text) (data : Value) (sink : Sink)
  | executeJson (name json : Text) (sink : Sink)
  | render (name : Text) (data : Value)
  | loadAssets (assets : List (Text × Text))
  | load (pattern : Text) (search : Search)
  | loadFile (f : SourceFile)

inductive Reply where
  | done
  | failed (failure : Failure)
  | deleted (present : Bool)
  | contains (present : Bool)
  | written (result : Except Failure Unit) (accepted : Array UInt8)
  | rendered (output : Array UInt8)
  | loaded (count : Nat)

structure Outcome where
  reply : Reply
  events : List Event
  session : Session

namespace Session

def empty : Session :=
  ⟨Registry.empty⟩

def skippedEvents (p : Progress) : List Event :=
  p.skipped.toList.map Event.skipped

def wrote (s : Session) (outcome : Except Failure Unit × Progress) : Outcome :=
  ⟨Reply.written outcome.1 outcome.2.sink.accepted, skippedEvents outcome.2, s⟩

def rendered (s : Session) (outcome : Except Failure Unit × Progress) : Outcome :=
  match outcome with
  | (Except.ok (), p) => ⟨Reply.rendered p.sink.accepted, skippedEvents p, s⟩
  | (Except.error failure, p) => ⟨Reply.failed failure, skippedEvents p, s⟩

def loaded {result : Type} (reply : result -> Reply) (loading : Loading result) :
    Outcome :=
  match loading.result with
  | Except.error failure => ⟨Reply.failed failure, loading.events, ⟨loading.registry⟩⟩
  | Except.ok r => ⟨reply r, loading.events, ⟨loading.registry⟩⟩

def step (s : Session) : Command -> Outcome
  | Command.add t => ⟨Reply.done, [s.registry.addEvent t], ⟨s.registry.add t⟩⟩
  | Command.delete name =>
      if s.registry.contains name then
        ⟨Reply.deleted true, [Event.deleted name], ⟨s.registry.delete name⟩⟩
      else ⟨Reply.deleted false, [], s⟩
  | Command.contains name => ⟨Reply.contains (s.registry.contains name), [], s⟩
  | Command.execute name data sink => s.wrote (s.registry.execute name data sink)
  | Command.executeJson name json sink =>
      s.wrote (s.registry.executeJson name json sink)
  | Command.render name data =>
      s.rendered (s.registry.execute name data Sink.unbounded)
  | Command.loadAssets assets =>
      loaded (fun () => Reply.done) (s.registry.loadAssets assets)
  | Command.load pattern search =>
      loaded Reply.loaded (s.registry.load pattern search)
  | Command.loadFile f => loaded (fun () => Reply.done) (s.registry.loadFile f)

def run (s : Session) (commands : List Command) : Session :=
  commands.foldl (fun s command => (s.step command).session) s

end Session

end Stencil
