import Stencil.Text.Basic

/-!
# Sinks

## Bounded writing

Rendering writes into a sink, which may take only so many bytes in all.  A single
write may be short: the sink takes what fits.  When nothing fits any more, the
sink refuses the write or takes no byte of it.  Writing a whole chunk repeats
single writes until the chunk is used up, and fails as soon as one of them makes
no progress.  An empty chunk is never written, so it cannot fail.
-/

namespace Stencil

inductive WhenFull where
  | refuse
  | takeNothing
deriving DecidableEq

inductive WriteFault where
  | sinkFull
  | noProgress
deriving DecidableEq

namespace WriteFault

def message : WriteFault -> Text
  | sinkFull => "sink full".toList
  | noProgress => "failed to write whole buffer".toList

end WriteFault

structure Sink where
  accepted : Array UInt8
  limit : Option Nat
  whenFull : WhenFull

namespace Sink

def unbounded : Sink :=
  ⟨#[], none, WhenFull.refuse⟩

/-- A sink that takes at most `limit` bytes. -/
def bounded (limit : Nat) (whenFull : WhenFull) : Sink :=
  ⟨#[], some limit, whenFull⟩

def accept (s : Sink) (bytes : List UInt8) : Sink :=
  { s with accepted := s.accepted ++ bytes.toArray }

/-- A single write, which tells how many bytes of the chunk were taken. -/
def write (s : Sink) (chunk : List UInt8) : Except WriteFault Nat × Sink :=
  match s.limit with
  | none => (Except.ok chunk.length, s.accept chunk)
  | some limit =>
      let part := chunk.take (limit - s.accepted.size)
      if part = [] ∧ chunk ≠ [] ∧ s.whenFull = WhenFull.refuse then
        (Except.error WriteFault.sinkFull, s)
      else (Except.ok part.length, s.accept part)

def writeAll (s : Sink) (chunk : List UInt8) : Except WriteFault Unit × Sink :=
  if _hne : chunk = [] then (Except.ok (), s)
  else
    match s.write chunk with
    | (Except.error fault, after) => (Except.error fault, after)
    | (Except.ok 0, after) => (Except.error WriteFault.noProgress, after)
    | (Except.ok (taken + 1), after) => after.writeAll (chunk.drop (taken + 1))
termination_by chunk.length
decreasing_by
  have hpos : 0 < chunk.length := List.length_pos_iff.mpr _hne
  simp
  omega

end Sink

end Stencil
