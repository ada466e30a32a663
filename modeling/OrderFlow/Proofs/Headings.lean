import Mathlib.Data.List.Infix
import OrderFlow.Event

/-!
# Events are told apart by their words

The record of an event begins with words of its own, and no such words begin any others.  So a
reader of the log can tell from how a record begins what happened, whatever else it says.
-/

namespace OrderFlow

/-- Whether a record begins with some words. -/
def Record.begins (words : String) (record : Record) : Bool :=
  words.toList.isPrefixOf record.message.toList

theorem Record.begins_iff {words : String} {record : Record} :
    record.begins words = true ↔ words.toList <+: record.message.toList :=
  List.isPrefixOf_iff_prefix

namespace Event

/-- The words with which the record of an event begins. -/
def heading : Event → String
  | .sendingBatches _ _ _ => "sending batches of "
  | .schedulerStarted _ _ _ => "scheduler started: period="
  | .tickLimitReached => "tick limit reached"
  | .waiting _ => "waiting on "
  | .tickAborted _ _ => "tick aborted: task "
  | .schedulerStopped _ => "scheduler stopped: ticks="
  | .connected _ => "connected to "
  | .sent => "Sent at "
  | .shutdownFailed _ => "shutdown after full batch failed: "
  | .attemptFailed _ => "Error establishing connection: "
  | .runDone _ => "--- done --- ticks="
  | .nothingDelivered => "no batch reached the engine"
  | .interrupted => "ctrl-c received, stopping scheduler"

/-- All headings. -/
def headings : List String :=
  ["sending batches of ", "scheduler started: period=", "tick limit reached", "waiting on ",
    "tick aborted: task ", "scheduler stopped: ticks=", "connected to ", "Sent at ",
    "shutdown after full batch failed: ", "Error establishing connection: ",
    "--- done --- ticks=", "no batch reached the engine", "ctrl-c received, stopping scheduler"]

theorem heading_mem_headings (event : Event) : event.heading ∈ headings := by
  cases event <;> simp [heading, headings]

/-- No heading begins another one. -/
theorem headings_prefix_free :
    ∀ words ∈ headings, ∀ others ∈ headings, words.toList <+: others.toList → words = others := by
  decide +kernel

theorem begins_heading (labels : Labels) (event : Event) :
    (event.record labels).begins event.heading = true := by
  rw [Record.begins_iff]
  unfold record message heading
  cases event <;> simp [Summary.text]

/-- A record begins with the heading of an event exactly if it is the record of such an event. -/
theorem begins_heading_iff (labels : Labels) (event other : Event) :
    (event.record labels).begins other.heading = true ↔ event.heading = other.heading := by
  constructor
  · intro hother
    have hown := Record.begins_iff.mp (begins_heading labels event)
    have hmem := event.heading_mem_headings
    have hmem' := other.heading_mem_headings
    rcases List.prefix_or_prefix_of_prefix hown (Record.begins_iff.mp hother) with hshort | hlong
    · exact headings_prefix_free _ hmem _ hmem' hshort
    · exact (headings_prefix_free _ hmem' _ hmem hlong).symm
  · intro hsame
    rw [← hsame]
    exact begins_heading labels event

/-- The records that begin with the heading of an event are those of such events. -/
theorem filter_begins_heading (labels : Labels) (log : List Event) (other : Event) :
    (log.map (record labels)).filter (Record.begins other.heading) =
      (log.filter fun event => event.heading = other.heading).map (record labels) := by
  rw [List.filter_map]
  congr 1
  apply List.filter_congr
  intro event _
  rw [Bool.eq_iff_iff, decide_eq_true_eq]
  exact begins_heading_iff labels event other

theorem begins_sent_iff {labels : Labels} {event : Event} :
    (event.record labels).begins "Sent at " = true ↔ event = .sent := by
  refine (begins_heading_iff labels event .sent).trans ?_
  cases event <;> simp [heading]

end Event

end OrderFlow
