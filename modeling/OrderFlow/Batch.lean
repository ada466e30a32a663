import OrderFlow.Peer
import OrderFlow.Turn

/-!
# Writing a batch

A batch is so many orders, each drawn when the line before it is out and written
until all of its line is taken; after the last line the connection is flushed.
A write that takes nothing is a failure, an interrupted write is repeated, and
any other failure ends the batch.  The result of a batch is the number of lines
written, or the failure with the number of whole lines that went out before it.
-/

namespace OrderFlow

namespace Batch

/-- Where a batch stands. -/
inductive Stage where
  /-- So many lines are out, and the rest of the next line is to be written. -/
  | writing (sent : Nat) (rest : List Char)
  /-- All lines are out. -/
  | flushing
  deriving DecidableEq

end Batch

/-- A batch of orders on its way. -/
structure Batch where
  size : Nat
  stage : Batch.Stage
  writes : Script
  flushes : Script

namespace Batch

/-- What a batch ends with. -/
abbrev Result := Except AttemptFailure Nat

/-- Draws the order of the next line, if a line is left. -/
def openLine (size sent : Nat) (generator : Generator) : Generator × List Act × Stage :=
  if sent < size then
    let (order, generator) := generator.next
    (generator, [.drew order], .writing sent order.line)
  else
    (generator, [], .flushing)

/-- A batch about to be written to a peer, with the first order drawn. -/
def start (size : Nat) (writes flushes : Script) (generator : Generator) :
    Generator × List Act × Batch :=
  let (generator, acts, stage) := openLine size 0 generator
  (generator, acts, ⟨size, stage, writes, flushes⟩)

/-- What follows a write that took `count` characters of the rest of line `sent + 1`. -/
def accept (batch : Batch) (sent : Nat) (rest : List Char) (count : Nat)
    (generator : Generator) : Turn Batch Result :=
  let acts := [.wrote rest (.took count)]
  if count = 0 then
    ⟨generator, acts, .ended (.error ⟨sent, .writeZero⟩)⟩
  else if rest.length ≤ count then
    let (generator, drawn, stage) := openLine batch.size (sent + 1) generator
    ⟨generator, acts ++ .logged .sent :: drawn, .again { batch with stage }⟩
  else
    ⟨generator, acts, .again { batch with stage := .writing sent (rest.drop count) }⟩

/-- One call on the connection. -/
def move (batch : Batch) (generator : Generator) : Turn Batch Result :=
  match batch.stage with
  | .writing sent rest =>
      let (reply, writes) := batch.writes.next
      let batch := { batch with writes }
      match reply with
      | .takesAll => batch.accept sent rest rest.length generator
      | .takes count => batch.accept sent rest (min count rest.length) generator
      | .notReady => ⟨generator, [.wrote rest .notReady], .waiting batch⟩
      | .stalls => ⟨generator, [.wrote rest .notReady], .waiting batch⟩
      | .fails cause =>
          let acts := [.wrote rest (.failed cause)]
          if cause.kind = .interrupted then
            ⟨generator, acts, .again batch⟩
          else
            ⟨generator, acts, .ended (.error ⟨sent, cause⟩)⟩
  | .flushing =>
      let (reply, flushes) := batch.flushes.next
      let batch := { batch with flushes }
      match reply with
      | .takesAll => ⟨generator, [.flushed (.took 0)], .ended (.ok batch.size)⟩
      | .takes _ => ⟨generator, [.flushed (.took 0)], .ended (.ok batch.size)⟩
      | .notReady => ⟨generator, [.flushed .notReady], .waiting batch⟩
      | .stalls => ⟨generator, [.flushed .notReady], .waiting batch⟩
      | .fails cause =>
          ⟨generator, [.flushed (.failed cause)], .ended (.error ⟨batch.size, cause⟩)⟩

/-- A bound on the calls a batch has still to make: one for each line to go, one for each
reply in its scripts, and one to flush. -/
def load (batch : Batch) : Nat :=
  let lines :=
    match batch.stage with
    | .writing sent _ => batch.size - sent + 1
    | .flushing => 1
  lines + batch.writes.calls + batch.flushes.calls

/-- Calls on the connection until one has to wait or the batch ends. -/
def poll (batch : Batch) (generator : Generator) : Turn Batch Result :=
  Turn.poll move batch.load batch generator

/-- Writes a batch of `size` orders to its end, repeating calls that were not ready. -/
def send (size : Nat) (writes flushes : Script) (generator : Generator) :
    Turn Batch Result :=
  let (generator, drawn, batch) := start size writes flushes generator
  (Turn.finish move batch.load batch generator).after drawn

end Batch

end OrderFlow
