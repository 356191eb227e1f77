import Notebook.Terminal.Output
import Notebook.Session.Manager
import Notebook.Staleness.Tracker
import Notebook.Prompt
import Notebook.Json.Writer

/-!
The dialogue at the prompt. Each line of code is evaluated at once; what is left of it unfinished stays
pending, and the next line goes on with it.
-/
namespace Notebook.Terminal
open Notebook.Text Notebook.Decimal

/-- A dialogue over one session. Evaluations that made something are counted. -/
structure Dialogue where
  manager : Manager
  session : SessionId
  tracker : Tracker Nat := {}
  pending : List Char := []
  count : Nat := 0

namespace Dialogue

/-- Begins a dialogue in a new session. -/
def start (m : Manager) : Dialogue :=
  let (session, manager) := m.create
  { manager, session }

/-- Two hexadecimal digits. -/
def hexText (byte : UInt8) : List Char :=
  [Json.hexDigit (byte.toNat / 16), Json.hexDigit (byte.toNat % 16)]

/-- The name of a session out of sixteen random bytes: a random unique identifier. -/
def sessionName (bytes : List UInt8) : List Char :=
  let marked := bytes.mapIdx fun i b =>
    if i = 6 then b &&& 0x0f ||| 0x40 else if i = 8 then b &&& 0x3f ||| 0x80 else b
  let part (start count : Nat) : List Char := ((marked.drop start).take count).flatMap hexText
  join ['-'] [part 0 4, part 4 2, part 6 2, part 8 2, part 10 6]

/-- What is printed first. -/
def greeting (sessionName : List Char) : List Char :=
  textLine ("Mercury session ".toList ++ sessionName ++ " (:help for commands)".toList)

/-- What is printed before a line is read. -/
def prompt (d : Dialogue) : List Char :=
  if d.pending.isEmpty then "In[".toList ++ natText (d.count + 1) ++ "]: ".toList
  else "   ...: ".toList

/-- What may be typed. -/
def helpText : List Char := (
  ":help              show this message\n" ++
  ":quit              end the session\n" ++
  ":complete <text>   show completions for the end of <text>\n" ++
  ":doc <text>        show documentation for the end of <text>\n" ++
  ":activate <name>   activate an on-demand capability\n" ++
  ":caps              list capabilities and whether they are active\n" ++
  ":drop <n>          drop snippet #<n>\n" ++
  "<empty line>       discard pending unfinished input\n").toList

/-- Unfinished input; it ends with a line feed. -/
def unfinished : Option (List Char) → List Char
  | none => []
  | some rest => if rest.getLast? = some '\n' then rest else rest ++ ['\n']

/-- Takes note of an evaluation. The evaluation counts if it made something. -/
def evaluated (d : Dialogue) (r : EvaluationResult) : List Char × Dialogue :=
  let d := { d with pending := unfinished r.incomplete }
  let shown := resultText { r with incomplete := none }
  if r.direct.isEmpty then (shown, d)
  else
    let count := d.count + 1
    let (stale, tracker) := d.tracker.record count r
    (shown ++ stale.flatMap fun cell =>
        textLine ("stale: In[".toList ++ natText cell ++ "] used definitions replaced here".toList),
      { d with count, tracker })

/-- What is printed for the completions of a text. -/
def completionText (r : CompletionResult) (text : List Char) : List Char :=
  let caret := width text
  let completed (s : String) : List Char := textLine (splice text r.anchor caret s.toList).1
  match r.tab text caret with
  | .nothing => textLine "no completions".toList
  | .apply s | .insertShared s => completed s
  | .choose items => items.flatMap fun s => textLine (' ' :: ' ' :: s.toList)

/-- What is printed for documentation. -/
def documentationText (ds : List Documentation) : List Char :=
  if ds.isEmpty then textLine "no documentation".toList
  else ds.flatMap fun d =>
    textLine d.signature.toList ++ if d.doc.isEmpty then [] else textLine d.doc.toList

/-- What is printed for the capabilities that there are: those that are active have a star. -/
def capabilitiesText (d : Dialogue) : List Char :=
  let active := d.manager.registry.names d.session
  d.manager.catalog.names.flatMap fun entry =>
    textLine ((if active.contains entry.1 then '*' else ' ') :: ' ' :: capabilityText entry)

/-- Asks the session. -/
def ask (d : Dialogue) (r : Request) : Reply × Dialogue :=
  let (reply, manager) := d.manager.ask d.session r
  (reply, { d with manager })

/-- Takes a line. What is printed comes along, and the dialogue as it goes on, if it does. -/
def take (d : Dialogue) (line : List Char) : Except Failure (List Char × Option Dialogue) :=
  let stay (text : List Char) : Except Failure (List Char × Option Dialogue) := .ok (text, some d)
  match Input.ofLine line with
  | .blank =>
    if d.pending.isEmpty then stay []
    else .ok (textLine "discarded unfinished input".toList, some { d with pending := [] })
  | .source text =>
    match d.ask (.evaluate (.ok ()) (d.pending ++ textLine text)) with
    | (.error e, _) => .error e
    | (.ok (.evaluation r), d) => let (shown, d) := d.evaluated r; .ok (shown, some d)
    | (.ok _, d) => .ok ([], some d)
  | .help => stay helpText
  | .quit => .ok ([], none)
  | .complete text =>
    match d.ask (.complete text (width text)) with
    | (.error e, _) => .error e
    | (.ok (.completion r), d) => .ok (completionText r text, some d)
    | (.ok _, d) => .ok ([], some d)
  | .documentation text =>
    match d.ask (.documentation text (width text)) with
    | (.error e, _) => .error e
    | (.ok (.documentation ds), d) => .ok (documentationText ds, some d)
    | (.ok _, d) => .ok ([], some d)
  | .activate name =>
    match d.ask (.activateNamed (String.ofList name) (d.manager.catalog.find? (String.ofList name))) with
    | (.ok (.capability object), d) =>
      .ok (textLine ("activated ".toList ++ name ++ " (".toList ++ object.typeName.toList ++ [')']), some d)
    | (.ok _, d) => .ok ([], some d)
    | (.error e, d) => .ok (textLine e.withHint.toList, some d)
  | .capabilities => stay d.capabilitiesText
  | .drop id =>
    match d.ask (.drop id) with
    | (.error e, _) => .error e
    | (.ok (.evaluation r), d) =>
      let label := '#' :: natText id
      .ok (textLine (if r.success then "dropped ".toList ++ label else label ++ " is not active".toList), some d)
    | (.ok _, d) => .ok ([], some d)
  | .unknown command => stay (textLine ("unknown command ".toList ++ command ++ " (try :help)".toList))

/-- Takes lines up to the end of the dialogue. What is printed comes along, prompts included, and the
failure that ended the dialogue if one did. -/
def takeAll (d : Dialogue) : List (List Char) → List Char × Option Failure
  | [] => (d.prompt, none)
  | line :: rest =>
    match d.take line with
    | .error e => (d.prompt, some e)
    | .ok (text, none) => (d.prompt ++ text, none)
    | .ok (text, some d') =>
      let (more, failure) := d'.takeAll rest
      (d.prompt ++ text ++ more, failure)

end Dialogue

end Notebook.Terminal
