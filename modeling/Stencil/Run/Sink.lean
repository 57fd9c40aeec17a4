import Stencil.Run.Error

/-!
# Sinks

Where output goes: a text that grows, perhaps up to a number of bytes. A write that would go
beyond it fails as a whole and leaves the sink as it is.
-/

namespace Stencil

/-- **A sink for output.** It has a limit so that a write can fail in the middle of a run; a sink
without a limit takes everything. -/
structure Sink where
  /-- all that has been written, and what was there before -/
  held : String
  /-- the number of bytes that may be held -/
  limit? : Option Nat
  deriving DecidableEq, Repr

namespace Sink

/-- The empty sink without a limit. -/
def empty : Sink := ⟨"", none⟩

/-- Whether a sink takes a text. Limits count bytes, so a text of a few characters may be more than
it looks. -/
def takes (sink : Sink) (text : String) : Bool :=
  match sink.limit? with
  | none => true
  | some limit => sink.held.utf8ByteSize + text.utf8ByteSize ≤ limit

/-- **One write**: the whole text or nothing. A sink that refuses a text is as it was, and may still
take a shorter one. -/
def write? (sink : Sink) (text : String) : Option Sink :=
  if sink.takes text then some { sink with held := sink.held ++ text } else none

end Sink

end Stencil
