import ByteMachine.Proofs.Machine.Halting
import ByteMachine.Proofs.Machine.Iteration
import ByteMachine.Proofs.Machine.Printing
import ByteMachine.Proofs.Text.Decimal
import ByteMachine.Session
import Mathlib.Data.List.Basic

/-!
# What a session shows

Whatever appears on the screen is an `Item`, a printed value or a record, and every item stands on a
line of its own. A session goes through the same items under every threshold, and the threshold only
decides which of the records are left out (`Session.runs_of_stops`).

The items of a run are put together from those of its steps (`Machine.runItems`). Important enough
to be shown without being asked for are, besides the printed values, only the faults, and as the
machine stops with its first fault there is at most one of them, behind everything that has been
printed (`Machine.filter_runItems`).
-/

namespace ByteMachine

/-! ### Items -/

/-- What appears on the screen in one piece. -/
inductive Item where
  | value (value : Byte)
  | record (r : Record)
deriving DecidableEq

namespace Item

/-- The line on which the item stands. -/
def line : Item → String
  | value v => v.decimal
  | record r => r.line

/-- Values are always shown, and records if they reach the threshold. -/
def isShown (threshold : Level) : Item → Bool
  | value _ => true
  | record r => threshold.shownUnder r.level

/-- The printed value. -/
def value? : Item → Option Byte
  | value v => some v
  | record _ => none

/-- What the item puts on the screen. -/
def shown (threshold : Level) (item : Item) : String :=
  if item.isShown threshold then item.line ++ "\n" else ""

end Item

/-- The screen after the items, as far as they are shown. -/
def showItems (threshold : Level) (items : List Item) : String :=
  String.join ((items.filter (Item.isShown threshold)).map fun item => item.line ++ "\n")

variable {threshold : Level}

/-- An item that is not shown puts nothing on the screen, so nothing is lost by going through all of
them. -/
theorem showItems_eq (threshold : Level) (items : List Item) :
    showItems threshold items = String.join (items.map (Item.shown threshold)) := by
  unfold showItems
  induction items with
  | nil => rfl
  | cons item items ih =>
    rw [List.filter_cons, List.map_cons, String.join_cons, ← ih, Item.shown]
    split
    · rw [List.map_cons, String.join_cons]
    · rw [String.empty_append]

/-- No threshold leaves out a value. -/
theorem values_filter (threshold : Level) (items : List Item) :
    (items.filter (Item.isShown threshold)).filterMap Item.value? =
      items.filterMap Item.value? := by
  induction items with
  | nil => rfl
  | cons item items ih =>
    cases item with
    -- a value passes the filter under every threshold
    | value v => exact congrArg (List.cons v) ih
    | record r =>
      -- a record has no value, whether it is left out or not
      rw [List.filterMap_cons_none rfl, ← ih, List.filter_cons]
      split
      · exact List.filterMap_cons_none rfl
      · rfl

/-- The values among items that are values are all of them. -/
theorem values_map_value (values : List Byte) :
    (values.map Item.value).filterMap Item.value? = values := by
  rw [List.filterMap_map]
  exact List.filterMap_some

/-- There are no values among records. -/
theorem values_map_record (records : List Record) :
    (records.map Item.record).filterMap Item.value? = [] := by
  rw [List.filterMap_map]
  exact List.filterMap_eq_nil_iff.mpr fun _ _ => rfl

/-- Of items that are records, those are shown that reach the threshold. -/
theorem filter_map_record (records : List Record) :
    (records.map Item.record).filter (Item.isShown threshold) =
      (records.filter fun r => threshold.shownUnder r.level).map .record :=
  List.filter_map

/-- A record that was noted is shown as the item of that record. -/
@[simp] theorem shown_noted (e : Entry) :
    Event.shown threshold (.noted e) = Item.shown threshold (.record e.record) := rfl

/-- The line of a value, read as text. -/
@[simp] theorem shown_output (v : Byte) :
    Event.shown threshold (.output v.decimalLine) = Item.shown threshold (.value v) := by
  -- the bytes of a decimal line are ASCII, so they are read as the characters they stand for
  have hchars : v.decimalLine.map (fun b => Char.ofNat b.toNat) = v.decimal.toList ++ ['\n'] := by
    rw [Byte.decimalLine, List.map_append, map_ofNat_toNat v.isDecimal_decimal.isDigit]
    rfl
  show String.ofList (v.decimalLine.map fun b => Char.ofNat b.toNat) = v.decimal ++ "\n"
  rw [hchars, String.ofList_append, String.ofList_toList]

/-! ### The items of a run -/

namespace Machine

variable {m : Machine} {n : Nat}

/-- The items of the next step. A machine that has stopped has none. -/
def stepItems (m : Machine) : List Item :=
  if m.running then
    .record (Entry.fetched m.snapshot).record :: (m.printed?.toList.map .value ++
      match m.finding with
      | .ok d => [.record (Entry.did d).record]
      | .error fault => [.record (Entry.failed fault).record])
  else
    []

/-- The items of a run of `n` steps. -/
def runItems (m : Machine) (n : Nat) : List Item :=
  m.collect stepItems n ++
    if m.lastFault n = none then [.record (Entry.stopped (m.stepped n).pc).record] else []

/-- A sink without a limit takes every line, so only what the machine finds can be at fault. -/
theorem fault_step_of_unlimited (hfree : m.sink.limit = none) :
    m.step.fault = match m.finding with
      | .ok _ => none
      | .error fault => some fault := by
  cases hfinding : m.finding with
  | ok d => exact (step_of_canPrint hfinding (canPrint_of_unlimited hfree)).fault
  | error fault => exact (step_of_error hfinding).fault

/-- **A step puts its items on the screen.** -/
theorem map_shown_step (hfree : m.sink.limit = none) :
    m.step.events.toList.map (Event.shown threshold) =
      m.stepItems.map (Item.shown threshold) := by
  unfold stepItems
  cases hrunning : m.running with
  | false =>
    -- a machine that has stopped does nothing and notes nothing
    rw [step_of_not_running hrunning]
    rfl
  | true =>
    rw [if_pos rfl]
    cases hfinding : m.finding with
    | ok d =>
      -- the line of the value and the record of what was done, behind that of the fetch
      rw [events_step_of_canPrint hfinding (canPrint_of_unlimited hfree)]
      simp only [List.map_cons, List.map_append, List.map_map, List.map_nil, Function.comp_def,
        shown_output, shown_noted]
    | error fault =>
      -- a fault that was found keeps the step from printing
      rw [events_step_of_error hrunning hfinding, printed?_of_error hfinding]
      rfl

/-- What is shown of two outcomes is shown one after the other. -/
theorem accumulates_shown :
    Outcome.Accumulates fun o => o.events.toList.map (Event.shown threshold) where
  quiet _ := rfl
  andThen h := by
    rw [Outcome.andThen_of_fault_none h, Array.toList_append, List.map_append]

/-- **A run puts its items on the screen.** -/
theorem map_shown_run (h : m.StopsAfter n) (hfree : m.sink.limit = none) :
    (m.advance n).conclude.events.toList.map (Event.shown threshold) =
      (m.runItems n).map (Item.shown threshold) := by
  obtain ⟨hmachine, hfault⟩ := advance_of_running h.running
  -- a step shows its items in whatever state the run has brought it to, since the limit stays none
  have hsteps : m.collect (fun m => m.step.events.toList.map (Event.shown threshold)) n =
      (m.collect stepItems n).map (Item.shown threshold) := by
    rw [collect, collect, List.map_flatMap]
    refine List.flatMap_congr fun k _ => ?_
    exact map_shown_step (limit_sink_stepped.trans hfree)
  rw [accumulates_shown.conclude, accumulates_advance accumulates_shown h.running, hsteps, hmachine,
    hfault, runItems, List.map_append]
  congr 1
  split
  · rfl
  · rfl

/-! ### What is shown without being asked for -/

/-- Of the items of a step, the value it prints and its fault are shown without being asked for. -/
theorem filter_stepItems (hrunning : m.running) (hfree : m.sink.limit = none) :
    m.stepItems.filter (Item.isShown .warn) = m.printed?.toList.map .value ++
      m.step.fault.toList.map fun fault => .record (Entry.failed fault).record := by
  have hvalues : (m.printed?.toList.map Item.value).filter (Item.isShown .warn) =
      m.printed?.toList.map .value := by
    refine List.filter_eq_self.mpr fun item hitem => ?_
    obtain ⟨v, -, rfl⟩ := List.mem_map.mp hitem
    rfl
  -- the fetch is for tracing only and goes; the value passes whatever the step finds
  rw [stepItems, if_pos hrunning, List.filter_cons_of_neg Bool.false_ne_true, List.filter_append,
    hvalues, fault_step_of_unlimited hfree]
  congr 1
  cases m.finding with
  | ok d => rfl
  | error fault => rfl

/-- **The values come first, and behind them the fault of the last step.** -/
theorem filter_collect_stepItems (h : ∀ k < n, (m.stepped k).running)
    (hfree : m.sink.limit = none) :
    (m.collect stepItems n).filter (Item.isShown .warn) = (m.printedValues n).map .value ++
      (m.lastFault n).toList.map fun fault => .record (Entry.failed fault).record := by
  -- by induction on the steps; all steps in front of the last one have succeeded
  induction n with
  | zero => rfl
  | succ n ih =>
    have hlast : (m.stepped n).running := h n (Nat.lt_succ_self n)
    rw [collect_succ, List.filter_append, ih fun k hk => h k (Nat.lt_succ_of_lt hk),
      lastFault_of_running hlast, filter_stepItems hlast (limit_sink_stepped.trans hfree),
      printedValues, printedValues, collect_succ, List.map_append, Option.toList_none, List.map_nil,
      List.append_nil, List.append_assoc]
    rfl

/-- **What a run shows without being asked for are its values, and behind them its fault.** -/
theorem filter_runItems (h : ∀ k < n, (m.stepped k).running) (hfree : m.sink.limit = none) :
    (m.runItems n).filter (Item.isShown .warn) = (m.printedValues n).map .value ++
      (m.lastFault n).toList.map fun fault => .record (Entry.failed fault).record := by
  rw [runItems, List.filter_append, filter_collect_stepItems h hfree]
  -- the note of the end is not important
  split
  · exact List.append_nil _
  · exact List.append_nil _

/-- The values among the items of a run are those that its steps have printed. -/
theorem values_runItems (h : ∀ k < n, (m.stepped k).running) (hfree : m.sink.limit = none) :
    (m.runItems n).filterMap Item.value? = m.printedValues n := by
  -- the fault is a record, so it has no value
  rw [← values_filter .warn, filter_runItems h hfree, List.filterMap_append, values_map_value]
  cases m.lastFault n with
  | none => exact List.append_nil _
  | some fault => exact List.append_nil _

end Machine

/-! ### The answer of a session -/

namespace Session

variable {s : Session} {m : Machine} {n : Nat}

/-- The items of a session that runs the machine for `n` steps. -/
def items (s : Session) (m : Machine) (n : Nat) : List Item :=
  s.opening.map .record ++ m.runItems n

/-- The values among the items of a session are those that its machine prints. -/
theorem values_items (h : ∀ k < n, (m.stepped k).running) (hfree : m.sink.limit = none) :
    (s.items m n).filterMap Item.value? = m.printedValues n := by
  rw [items, List.filterMap_append, values_map_record, List.nil_append,
    Machine.values_runItems h hfree]

/-- The session runs the machine, which makes `n` steps with the outcome `o`. It shows its items and
ends as the run does. -/
structure Runs (s : Session) (m : Machine) (n : Nat) (o : Outcome) : Prop where
  machine : s.machine = .ok m
  run : m.RunOfSteps n o
  answer : ∀ limit, s.answer? limit = if n ≤ limit then some
      { code := (s.ending o.fault).code
        stdout := showItems s.threshold (s.items m n)
        stderr := (s.ending o.fault).report }
    else none
  values : (s.items m n).filterMap Item.value? = m.printedValues n

/-- **A session runs its machine if that stops.** -/
theorem runs_of_stops (hm : s.machine = .ok m) (hfree : m.sink.limit = none)
    (h : m.StopsAfter n) : s.Runs m n (m.advance n).conclude where
  machine := hm
  run := h.runOfSteps
  answer limit := by
    -- the screen before the run is that of the opening records
    have hopening : s.shownOpening =
        String.join ((s.opening.map Item.record).map (Item.shown s.threshold)) := by
      rw [List.map_map]
      rfl
    -- the opening and the run stand one behind the other, on the screen and in the list of items
    have hscreen : s.shownOpening ++ showEvents s.threshold (m.advance n).conclude.events =
        showItems s.threshold (s.items m n) := by
      rw [showItems_eq, items, List.map_append, String.join_append, hopening, showEvents,
        Machine.map_shown_run h hfree]
    unfold answer?
    rw [hm]
    show (m.run? limit).map _ = _
    rw [h.run?_eq]
    split
    · rw [Option.map_some, hscreen]
    · rfl
  values := values_items h.running hfree

/-- A session without a machine shows its opening and ends. -/
theorem answer?_of_ending {ending : Ending} (hm : s.machine = .error ending) (limit : Nat) :
    s.answer? limit = some
      { code := ending.code
        stdout := showItems s.threshold (s.opening.map .record)
        stderr := ending.report } := by
  rw [answer?, hm, showItems_eq, List.map_map]
  rfl

end Session

end ByteMachine
