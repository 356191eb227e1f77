import Notebook.Terminal.Output
import Notebook.Session.Manager
import Notebook.Staleness.Tracker

/-!
Running a sheet: its cells are evaluated in order in a new session, and each evaluation is reported.
-/
namespace Notebook.Terminal
open Notebook.Text Notebook.Decimal

/-- The cells up to the one of a name, or all of them if there is no name; nothing if no cell has it. -/
def cellsUntil (cs : List Cell) : Option (List Char) → Option (List Cell)
  | none => some cs
  | some name =>
    match cs.findIdx? fun c => c.name.toList = name with
    | some last => some (cs.take (last + 1))
    | none => none

/-- What came of things that were done one after the other: of all of them, or of those before a failure. -/
abbrev Series (α : Type) := Except (List α × Failure) (List α)

/-- What came of one thing, and then of others. -/
def Series.cons {α : Type} (a : α) : Series α → Series α
  | .ok as => .ok (a :: as)
  | .error (as, e) => .error (a :: as, e)

/-- Evaluates cells in a session and reports what came of each. -/
def reportCells (m : Manager) (session : SessionId) (tracker : Tracker String) : List Cell → Series CellReport
  | [] => .ok []
  | c :: cs =>
    match m.ask session (.evaluate (.ok ()) c.source) with
    | (.error e, _) => .error ([], e)
    | (.ok (.evaluation result), m) =>
      let (stale, tracker) := tracker.record c.name result
      Series.cons ⟨c.name, c.line, stale, result⟩ (reportCells m session tracker cs)
    | (.ok _, m) => reportCells m session tracker cs

/-- Evaluates cells in a new session. -/
def runCells (m : Manager) (cs : List Cell) : Series CellReport :=
  let (session, m) := m.create
  reportCells m session {} cs

/-- How many cells failed. -/
def failedCells (reports : List CellReport) : Nat := reports.countP (!·.result.success)

/-- A line across the page. -/
def ruler : List Char := textLine (List.replicate 50 '─')

/-- What is printed before a sheet is run. -/
def headingText (sheet : List Char) : List Char := textLine ("Running ".toList ++ sheet) ++ ruler

/-- What is printed if a sheet has no cells. -/
def emptyText : List Char :=
  '\n' :: textLine "No cells found in sheet.".toList ++
    textLine ("Cells start at lines beginning with \x60".toList ++ cellMarker ++ ['\x60'])

/-- A time in seconds with two places, of which the last is rounded. -/
def secondsText (milliseconds : Nat) : List Char :=
  let hundredths := (milliseconds + 5) / 10
  let places := natText (hundredths % 100)
  natText (hundredths / 100) ++ '.' :: List.replicate (2 - places.length) '0' ++ places

/-- What is printed after a sheet was run, in so many seconds. -/
def summaryText (reports : List CellReport) (seconds : List Char) : List Char :=
  '\n' :: ruler ++
    textLine ("Completed ".toList ++ natText reports.length ++ " cells in ".toList ++ seconds ++
      "s (".toList ++ natText (failedCells reports) ++ " failed)".toList)

/-- What is printed while a sheet is run. -/
def progressText (sheet : List Char) (json : Bool) (reports : List CellReport) : List Char :=
  if json then [] else headingText sheet ++ reports.flatMap cellText

/-- What is printed for a sheet. -/
def sheetText (sheet : List Char) (json : Bool) (reports : List CellReport) (seconds : List Char) :
    List Char :=
  progressText sheet json reports ++
    if json then textLine (Record.cells reports)
    else if reports.isEmpty then emptyText
    else summaryText reports seconds

/-- The complaint if cells failed. -/
def sheetComplaint? (reports : List CellReport) : Option (List Char) :=
  if failedCells reports = 0 then none
  else some (natText (failedCells reports) ++ " of ".toList ++ natText reports.length ++
    " cells failed".toList)

end Notebook.Terminal
