import NoraInterviewer.BuiltInJudges
import NoraInterviewer.JsonRoundTrip
import Mathlib.Data.Int.Log

/-! The coding tool: what becomes of a submission, and of what its sandbox prints. -/

namespace NoraInterviewer

open JsonText

/-- A Python float; the two zeros are one. -/
inductive PyFloat where
  | nan
  | inf (negative : Bool)
  | finite (value : ℚ)
  deriving DecidableEq

/-- The last binary place of the double nearest `x`. -/
def lastPlace (x : ℚ) : ℚ := (2 : ℚ) ^ max (Int.log 2 |x| - 52) (-1074)

/-- The double nearest `x`, a tie to the even one. -/
def toDouble (x : ℚ) : PyFloat :=
  let rounded := roundHalfEven (x / lastPlace x) * lastPlace x
  if (2 : ℚ) ^ 1024 ≤ |rounded| then .inf (decide (x < 0)) else .finite rounded

instance : FloatText PyFloat where
  ofDecimal := toDouble
  nan := .nan
  inf := .inf

/-- The code points of a string. -/
def codePoints (text : String) : List Nat := text.toList.map Char.toNat

/-- `int(text)`, where it does not raise `ValueError`. -/
class IntText where
  parse : List Nat → Option ℤ

def truncateRat (x : ℚ) : ℤ := if 0 ≤ x then x.floor else x.ceil

/-- `int(value)` of a decoded value. -/
def toInt [IntText] : Value PyFloat → Except Raised ℤ
  | .bool value => .ok (if value then 1 else 0)
  | .int value => .ok value
  | .float (.finite value) => .ok (truncateRat value)
  | .float .nan => .error (.valueError "cannot convert float NaN to integer")
  | .float (.inf _) => .error (.other "OverflowError" "cannot convert float infinity to integer")
  | .str text =>
    match IntText.parse text with
    | some value => .ok value
    | none => .error (.valueError "invalid literal for int() with base 10")
  | .null => .error (.typeError "int() argument must be a string or a real number, not 'NoneType'")
  | .arr _ => .error (.typeError "int() argument must be a string or a real number, not 'list'")
  | .obj _ => .error (.typeError "int() argument must be a string or a real number, not 'dict'")

/-- The characters that `str.splitlines` breaks at; a line feed after a carriage return is of the
same break. -/
def isLineBreak (c : Char) : Bool :=
  c.toNat ∈ [0x0a, 0x0b, 0x0c, 0x0d, 0x1c, 0x1d, 0x1e, 0x85, 0x2028, 0x2029]

/-- `str.splitlines`, with the line read so far. -/
def splitLines : List Char → List Char → List (List Char)
  | [], line => if line = [] then [] else [line.reverse]
  | '\r' :: '\n' :: rest, line => line.reverse :: splitLines rest []
  | c :: rest, line =>
    if isLineBreak c then line.reverse :: splitLines rest [] else splitLines rest (c :: line)

def resultPrefix : String := "__NORA_TEST_RESULT__"

structure PrivateChallenge where
  id : String
  hiddenTests : List String
  publicTests : List String
  timeoutSeconds : ℚ

structure SandboxResult where
  exitCode : Option ℤ := none
  stdout : String := ""
  stderr : String := ""
  timedOut : Bool := false
  durationMs : Nat
  providerId : String := "unknown"
  executionId : Option String := none
  artifacts : List Json := []

/-- The challenges that the process holds, and the runner, which raises `SandboxUnavailable` or
returns a result. -/
structure CodingInterviewTool where
  challenges : String → Option PrivateChallenge
  runPython : String → String → ℚ → Except String SandboxResult
  bounds : Bounds

/-- `ToolEvaluation`, whose evidence may hold a value as it was decoded. -/
structure CodingEvaluation where
  toolId : String
  submissionId : String
  passed : Option Bool
  score : Option UnitScore
  summary : String
  evidence : Dict (Json ⊕ Value PyFloat)

/-- A list of strings as `json.dumps` writes it. -/
def dumpTests (tests : List String) : String :=
  let texts := tests.map fun test =>
    String.ofList ((dumpString (codePoints test)).map Char.ofNat)
  "[" ++ ", ".intercalate texts ++ "]"

/-- `_build_harness`. -/
def buildHarness (tests : List String) : String :=
  "import json\nfrom solution import *\n\ntests = " ++ dumpTests tests ++
  "\npassed = 0\nfailures = []\nfor index, test in enumerate(tests):\n    try:\n" ++
  "        exec(test, globals(), globals())\n        passed += 1\n" ++
  "    except Exception as exc:\n        failures.append(\x7b\"index\": index, " ++
  "\"error\": f\"\x7btype(exc).__name__\x7d: \x7bexc\x7d\"\x7d)\n\n" ++
  "result = \x7b\"passed\": passed, \"total\": len(tests), \"failures\": failures\x7d\n" ++
  "print(\"" ++ resultPrefix ++ "\" + json.dumps(result, sort_keys=True))\n" ++
  "raise SystemExit(0 if not failures else 1)\n"

/-- What is raised where `json.loads` fails for another reason than that the text is not JSON. -/
def loadsRaised : LoadFailure → Option Raised
  | .notJson => none
  | .tooManyDigits => some (.valueError "Exceeds the limit for integer string conversion")
  | .tooDeep => some (.other "RecursionError" "maximum recursion depth exceeded")

/-- `_parse_result`: the value on the last line with the prefix, and `None` where there is none. -/
def parseResult (bounds : Bounds) (stdout : String) : Except Raised (Value PyFloat) :=
  match (splitLines stdout.toList []).reverse.find? fun line => resultPrefix.toList.isPrefixOf line with
  | none => .ok .null
  | some line =>
    match loads bounds ((line.drop resultPrefix.length).map Char.toNat) with
    | .ok value => .ok value
    | .error failure =>
      match loadsRaised failure with
      | none => .ok .null
      | some e => .error e

/-- `_evaluation_provenance`. -/
def evaluationProvenance (invocation : ToolInvocation) : Json := .obj [
  ("evaluator_id", .str "nora.coding.python_tests"),
  ("evaluator_version", .str "1"),
  ("tool_kind", .str "coding"),
  ("template_id", (invocation.payload.lookup "template_id").getD .null),
  ("automatic_hiring_decision", .bool false)]

/-- `int(parsed.get(name, 0))`. -/
def reported [IntText] (fields : List (List Nat × Value PyFloat)) (name : String) :
    Except Raised ℤ :=
  match fields.lookup (codePoints name) with
  | none => .ok 0
  | some value => toInt value

/-- `(passed_count / total) if total else None`. -/
def quotient (passed total : ℤ) : Except Raised (Option ℚ) :=
  if total = 0 then .ok none
  else
    match toDouble (passed / total) with
    | .finite score => .ok (some score)
    | _ => .error (.other "OverflowError" "integer division result too large for a float")

/-- The range of `ToolEvaluation.score`. -/
def validateScore : Option ℚ → Except Raised (Option UnitScore)
  | none => .ok none
  | some score =>
    if h : 0 ≤ score ∧ score ≤ 1 then .ok (some ⟨score, h⟩)
    else .error (.validationError "ToolEvaluation score is out of range")

namespace CodingInterviewTool

def sandboxEvidence (result : SandboxResult) : Dict (Json ⊕ Value PyFloat) := [
  ("sandbox_provider", .inl (.str result.providerId)),
  ("sandbox_execution_id", .inl (.ofOption result.executionId)),
  ("sandbox_artifacts", .inl (.arr result.artifacts))]

def exitCodeJson (result : SandboxResult) : Json :=
  result.exitCode.elim .null fun exitCode => .num exitCode

/-- What the report of a run that ended in time comes to. -/
def assess [IntText] (invocation : ToolInvocation) (submission : ToolSubmission)
    (result : SandboxResult) (parsed : Value PyFloat) : Except Raised CodingEvaluation :=
  match parsed with
  | .null => .ok {
      toolId := invocation.id
      submissionId := submission.id
      passed := some false
      score := some ⟨0, by decide, by decide⟩
      summary := "Sandbox completed without a valid Nora test result."
      evidence := [
        ("exit_code", .inl (exitCodeJson result)),
        ("stderr", .inl (.str (String.ofList
          (result.stderr.toList.drop (result.stderr.length - 4000))))),
        ("duration_ms", .inl (.nat result.durationMs))] ++ sandboxEvidence result ++
        [("evaluation_provenance", .inl (evaluationProvenance invocation))] }
  | .obj fields => do
    let total ← reported fields "total"
    let passedCount ← reported fields "passed"
    let score ← quotient passedCount total
    let score ← validateScore score
    pure {
      toolId := invocation.id
      submissionId := submission.id
      passed := some (decide (passedCount = total ∧ 0 < total))
      score
      summary := s!"Passed {passedCount}/{total} configured tests."
      evidence := [
        ("passed_tests", .inl (.num passedCount)),
        ("total_tests", .inl (.num total)),
        ("failures", .inr ((fields.lookup (codePoints "failures")).getD (.arr []))),
        ("duration_ms", .inl (.nat result.durationMs)),
        ("exit_code", .inl (exitCodeJson result))] ++ sandboxEvidence result ++
        [("evaluation_provenance", .inl (evaluationProvenance invocation))] }
  | _ => .error (.other "AttributeError" "object has no attribute 'get'")

/-- `evaluate` of what the sandbox returned. -/
def judge [IntText] (tool : CodingInterviewTool) (invocation : ToolInvocation)
    (submission : ToolSubmission) (result : SandboxResult) : Except Raised CodingEvaluation := do
  let parsed ← parseResult tool.bounds result.stdout
  if result.timedOut then
    pure {
      toolId := invocation.id
      submissionId := submission.id
      passed := some false
      score := some ⟨0, by decide, by decide⟩
      summary := "Code execution exceeded the configured time limit."
      evidence := [
        ("timed_out", .inl (.bool true)),
        ("duration_ms", .inl (.nat result.durationMs))] ++ sandboxEvidence result ++
        [("evaluation_provenance", .inl (evaluationProvenance invocation))] }
  else assess invocation submission result parsed

/-- The source code of a submission, if there is any but space. -/
def sourceCode (submission : ToolSubmission) : Option String :=
  match submission.content.lookup "code" with
  | some (.str source) => if strip source = "" then none else some source
  | _ => none

def evaluate [IntText] (tool : CodingInterviewTool) (invocation : ToolInvocation)
    (submission : ToolSubmission) : Except Raised CodingEvaluation :=
  match sourceCode submission with
  | none => .ok {
      toolId := invocation.id
      submissionId := submission.id
      passed := some false
      score := some ⟨0, by decide, by decide⟩
      summary := "Coding submission did not contain non-empty source code."
      evidence := [
        ("reason", .inl (.str "missing_code")),
        ("evaluation_provenance", .inl (evaluationProvenance invocation))] }
  | some source =>
    match tool.challenges invocation.id with
    | none => .error (.valueError "coding challenge private state is unavailable")
    | some challenge =>
      let tests := challenge.publicTests ++ challenge.hiddenTests
      match tool.runPython source (buildHarness tests) challenge.timeoutSeconds with
      | .error unavailable => .ok {
          toolId := invocation.id
          submissionId := submission.id
          passed := none
          score := none
          summary := "Submission recorded, but automatic code execution is unavailable. " ++
            "Manual or external sandbox review is required."
          evidence := [
            ("sandbox_unavailable", .inl (.str unavailable)),
            ("review_required", .inl (.bool true)),
            ("evaluation_provenance", .inl (evaluationProvenance invocation))] }
      | .ok result => tool.judge invocation submission result

end CodingInterviewTool

end NoraInterviewer
