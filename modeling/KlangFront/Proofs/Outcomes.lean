import KlangFront.Command.Program
import KlangFront.Proofs.ReportReads
import KlangFront.Proofs.Sinks

/-!
# How the program ends

`Program.Ends` lists the ways in which a call of the program can end: its status and
what it leaves on the standard output and on the standard error. The rules are taken
from the first to the last check that the program makes, and no two of them fit the same
call. `Program.run_ends` says that every call ends by one of them, that a call uses only
one of the two outputs, and what remains of it when the standard output takes nothing.
-/

namespace KlangFront

namespace Program

/-- A call on files that stay as they are, when the standard error is not a terminal. -/
def run (files : String → Except ReadError String) (environment : ColorEnvironment)
    (arguments : List String) (sink : Sink) : Outcome :=
  (answer (m := Id) ⟨files, false, environment⟩ arguments).deliver sink

end Program

/-- The options of a report that does not go to a terminal. -/
def LexArguments.reportOptions (request : LexArguments) : ReportOptions :=
  ⟨request.color = .always, request.locations⟩

namespace Program

/-- The status, the standard output and the standard error of a call. -/
inductive Ends (files : String → Except ReadError String) :
    List String → (status : UInt8) → (stdout stderr : String) → Prop
  | noArguments : Ends files [] 0 usage ""
  | help {command : String} {rest : List String} (h : command ∈ ["help", "-h", "--help"]) :
      Ends files (command :: rest) 0 usage ""
  | version {command : String} {rest : List String}
      (h : command ∈ ["version", "-V", "--version"]) :
      Ends files (command :: rest) 0 ("kc " ++ version ++ "\n") ""
  | unknownCommand {command : String} {rest : List String} (hlex : command ≠ "lex")
      (hhelp : command ∉ ["help", "-h", "--help"])
      (hversion : command ∉ ["version", "-V", "--version"]) :
      Ends files (command :: rest) 2 ""
        ("error: " ++ ("unknown command '" ++ command ++ "'") ++ "\n\n" ++ usage)
  | badArguments {rest : List String} {error : ArgumentError}
      (h : LexArguments.parse rest = .error error) :
      Ends files ("lex" :: rest) 2 "" ("error: " ++ error.message ++ "\n\n" ++ usage)
  | otherExtension {rest : List String} {request : LexArguments}
      (h : LexArguments.parse rest = .ok request)
      (hpath : Path.extension? request.path ≠ some ['k']) :
      Ends files ("lex" :: rest) 1 ""
        (refusedExtension.report (m := Id) (fun _ => none) request.reportOptions)
  | unreadable {rest : List String} {request : LexArguments} {reason : ReadError}
      (h : LexArguments.parse rest = .ok request)
      (hpath : Path.extension? request.path = some ['k'])
      (hfile : files request.path = .error reason) :
      Ends files ("lex" :: rest) 3 ""
        ("internal error: " ++ ("cannot read '" ++ request.path ++ "': " ++ reason.message) ++ "\n")
  | broken {rest : List String} {request : LexArguments} {source : String} {error : LexicalError}
      (h : LexArguments.parse rest = .ok request)
      (hpath : Path.extension? request.path = some ['k'])
      (hfile : files request.path = .ok source)
      (htokens : tokenize (fileNamed request.path) source = .error error) :
      Ends files ("lex" :: rest) 1 ""
        (error.toDiagnostic.report (m := Id) (fun path => (files path).toOption)
          request.reportOptions)
  | listed {rest : List String} {request : LexArguments} {source : String} {tokens : List Token}
      (h : LexArguments.parse rest = .ok request)
      (hpath : Path.extension? request.path = some ['k'])
      (hfile : files request.path = .ok source)
      (htokens : tokenize (fileNamed request.path) source = .ok tokens) :
      Ends files ("lex" :: rest) 0 (Listing.text request.path tokens) ""

variable {files : String → Except ReadError String} {environment : ColorEnvironment}

/-- A call ends by an answer, delivered whole. -/
def EndsBy (files : String → Except ReadError String) (arguments : List String)
    (answer : Answer) : Prop :=
  Ends files arguments answer.status (String.join answer.output) answer.report

/-- The answer to a call that lists tokens, as far as its arguments are right. -/
theorem lex_eq {rest : List String} {request : LexArguments}
    (h : LexArguments.parse rest = .ok request) :
    lex (m := Id) ⟨files, false, environment⟩ rest =
      match lexFile (m := Id) files request.path with
      | .error failure => fail (m := Id) ⟨files, false, environment⟩ request.reportOptions failure
      | .ok tokens => .listing request.path tokens := by
  have hoptions : (⟨request.color.resolve false environment, request.locations⟩ : ReportOptions)
      = request.reportOptions := by
    cases hcolor : request.color <;> simp [LexArguments.reportOptions, ColorMode.resolve, hcolor]
  simp only [lex, h, hoptions]
  rfl

theorem lexFile_eq {path : String} (h : Path.extension? path = some ['k']) :
    lexFile (m := Id) files path = match files path with
      | .error reason => .error (.unreadable path reason.message)
      | .ok source => match tokenize (fileNamed path) source with
        | .error error => .error (.reported error.toDiagnostic)
        | .ok tokens => .ok tokens := by
  rw [lexFile, if_pos h]
  rfl

theorem lex_ends (rest : List String) :
    EndsBy files ("lex" :: rest) (lex (m := Id) ⟨files, false, environment⟩ rest) := by
  cases hparse : LexArguments.parse rest with
  | error error =>
    simp only [lex, hparse]
    exact .badArguments hparse
  | ok request =>
    rw [lex_eq hparse]
    by_cases hpath : Path.extension? request.path = some ['k']
    · rw [lexFile_eq hpath]
      cases hfile : files request.path with
      | error reason => exact .unreadable hparse hpath hfile
      | ok source =>
        cases htokens : tokenize (fileNamed request.path) source with
        | error error =>
          simp only [htokens]
          exact .broken hparse hpath hfile htokens
        | ok tokens =>
          simp only [htokens]
          exact .listed hparse hpath hfile htokens
    · rw [lexFile, if_neg hpath]
      exact .otherExtension hparse hpath

theorem answer_ends (arguments : List String) :
    EndsBy files arguments (answer (m := Id) ⟨files, false, environment⟩ arguments) := by
  have husage {arguments : List String} (h : Ends files arguments 0 usage "") :
      EndsBy files arguments .usage := by
    simpa [EndsBy, Answer.status, Answer.output, Answer.report] using h
  have hversion {arguments : List String}
      (h : Ends files arguments 0 ("kc " ++ version ++ "\n") "") :
      EndsBy files arguments .version := by
    simpa [EndsBy, Answer.status, Answer.output, Answer.report] using h
  cases arguments with
  | nil => exact husage .noArguments
  | cons command rest =>
    by_cases hlex : command = "lex"
    · subst hlex
      exact lex_ends rest
    · rw [answer, if_neg hlex]
      by_cases hhelp : command = "help" ∨ command = "-h" ∨ command = "--help"
      · rw [if_pos hhelp]
        exact husage (.help (by simpa using hhelp))
      · rw [if_neg hhelp]
        by_cases hnumber : command = "version" ∨ command = "-V" ∨ command = "--version"
        · rw [if_pos hnumber]
          exact hversion (.version (by simpa using hnumber))
        · rw [if_neg hnumber]
          exact .unknownCommand hlex (by simpa using hhelp) (by simpa using hnumber)

variable {arguments : List String} {status status' : UInt8} {stdout stdout' stderr stderr' : String}

private theorem not_help_of_version {command : String}
    (h : command ∈ ["version", "-V", "--version"]) : command ∉ ["help", "-h", "--help"] := by
  simp only [List.mem_cons, List.not_mem_nil, or_false] at h
  rcases h with rfl | rfl | rfl <;> decide

/-- The checks of two rules exclude each other. -/
theorem Ends.unique (h : Ends files arguments status stdout stderr)
    (h' : Ends files arguments status' stdout' stderr') :
    status' = status ∧ stdout' = stdout ∧ stderr' = stderr := by
  cases h with
  | noArguments => cases h'; exact ⟨rfl, rfl, rfl⟩
  | help hhelp =>
    cases h' with
    | version hversion => exact absurd hhelp (not_help_of_version hversion)
    | _ => simp_all
  | version hversion =>
    cases h' with
    | help hhelp => exact absurd hhelp (not_help_of_version hversion)
    | _ => simp_all
  | unknownCommand | badArguments | otherExtension | unreadable | broken | listed =>
    cases h' <;> simp_all

-- ---------------------------------------------------------------------------
-- Outputs
-- ---------------------------------------------------------------------------

theorem listing_ne_empty (path : String) (tokens : List Token) :
    Listing.text path tokens ≠ "" := by
  have htitle : Listing.title path tokens ≠ "" :=
    fun h => absurd (String.append_eq_empty_iff.mp h).2 (by decide)
  rw [Listing.text, Listing.lines, String.join_cons]
  exact fun h => htitle (String.append_eq_empty_iff.mp h).1

theorem report_ne_empty (read : String → Option String) (options : ReportOptions)
    (d : Diagnostic) : d.report (m := Id) read options ≠ "" := by
  have hrows (row : Row) (rows : List Row) : Report.text options.color (row :: rows) ≠ "" := by
    simp [Report.text]
  rw [Diagnostic.report, Report.rows_eq]
  exact hrows _ _

/-- A call that succeeds says something on the standard output only. -/
theorem Ends.of_success (h : Ends files arguments status stdout stderr) (hstatus : status = 0) :
    stdout ≠ "" ∧ stderr = "" := by
  subst hstatus
  cases h with
  | noArguments | help => exact ⟨by decide, rfl⟩
  | version => exact ⟨by decide, rfl⟩
  | listed _ _ _ _ => exact ⟨listing_ne_empty _ _, rfl⟩

/-- A call that fails says something on the standard error only. -/
theorem Ends.of_failure (h : Ends files arguments status stdout stderr) (hstatus : status ≠ 0) :
    stdout = "" ∧ stderr ≠ "" := by
  cases h with
  | noArguments | help | version | listed => exact absurd rfl hstatus
  | unknownCommand | badArguments | unreadable => exact ⟨rfl, by simp⟩
  | otherExtension | broken => exact ⟨rfl, report_ne_empty _ _ _⟩

end Program

theorem Answer.deliver_unlimited (answer : Answer) :
    answer.deliver .unlimited =
      ⟨answer.status, ⟨none, .full, (String.join answer.output).toUTF8⟩, answer.report⟩ := by
  simp [deliver, Sink.writeAll_eq_write, Sink.write, Sink.unlimited]

/-- An answer to an output that takes nothing. -/
theorem Answer.deliver_refused (answer : Answer) (refusal : WriteError) :
    answer.deliver ⟨some 0, refusal, .empty⟩ =
      if String.join answer.output = "" then
        ⟨answer.status, ⟨some 0, refusal, .empty⟩, answer.report⟩
      else ⟨undeliveredStatus, ⟨some 0, refusal, .empty⟩, answer.undelivered refusal.message⟩ := by
  rw [deliver, Sink.writeAll_eq_write, Sink.write]
  by_cases hempty : String.join answer.output = ""
  · simp [hempty]
  · simp [hempty]

theorem Answer.undelivered_ne_empty (answer : Answer) (reason : String) :
    answer.undelivered reason ≠ "" := by
  unfold undelivered
  split <;> simp

/-- Every call ends by one of the rules and leaves what this rule says. A call that succeeds
leaves nothing on the standard error, and one that fails leaves nothing on the standard
output and something on the standard error. If the standard output takes nothing, the calls
that succeed fail in their turn, and the others do not notice. -/
theorem Program.run_ends (files : String → Except ReadError String)
    (environment : ColorEnvironment) (arguments : List String) :
    ∃ status stdout stderr,
      (∀ status' stdout' stderr', Ends files arguments status' stdout' stderr' ↔
        status' = status ∧ stdout' = stdout ∧ stderr' = stderr) ∧
      run files environment arguments .unlimited = ⟨status, ⟨none, .full, stdout.toUTF8⟩, stderr⟩ ∧
      (status = 0 → stderr = "") ∧ (status ≠ 0 → stdout = "" ∧ stderr ≠ "") ∧
      ∀ refusal, let refused := run files environment arguments ⟨some 0, refusal, .empty⟩
        refused.output.written = .empty ∧
          if status = 0 then refused.status = 3 ∧ refused.report ≠ ""
          else refused.status = status ∧ refused.report = stderr := by
  have hends : EndsBy files arguments (answer (m := Id) ⟨files, false, environment⟩ arguments) :=
    answer_ends arguments
  unfold run
  generalize answer (m := Id) ⟨files, false, environment⟩ arguments = given at hends
  have hrule : ∀ status' stdout' stderr', Ends files arguments status' stdout' stderr' ↔
      status' = given.status ∧ stdout' = String.join given.output ∧ stderr' = given.report := by
    intro status' stdout' stderr'
    constructor
    · exact hends.unique
    · rintro ⟨rfl, rfl, rfl⟩
      exact hends
  refine ⟨_, _, _, hrule, given.deliver_unlimited, fun h => (hends.of_success h).2,
    hends.of_failure, fun refusal => ?_⟩
  rw [given.deliver_refused]
  by_cases hstatus : given.status = 0
  · rw [if_neg (hends.of_success hstatus).1]
    refine ⟨rfl, ?_⟩
    rw [if_pos hstatus]
    exact ⟨rfl, given.undelivered_ne_empty _⟩
  · rw [if_pos (hends.of_failure hstatus).1]
    refine ⟨rfl, ?_⟩
    rw [if_neg hstatus]
    exact ⟨rfl, rfl⟩

end KlangFront
