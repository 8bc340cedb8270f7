import NoraInterviewer.CodingTool

namespace NoraInterviewer

open JsonText

/-- The values that `int` reads or refuses with `ValueError`. -/
def Readable : Value PyFloat → Prop
  | .null | .arr _ | .obj _ | .float (.inf _) => False
  | _ => True

theorem toInt_raises [IntText] {value : Value PyFloat} :
    (∀ e, toInt value = .error e → e.isValueError = true) ↔ Readable value := by
  cases value with
  | null | arr | obj =>
    refine ⟨fun h => absurd (h _ rfl) (by decide), fun h => h.elim⟩
  | bool | int =>
    refine ⟨fun _ => trivial, fun _ e he => (by cases he)⟩
  | float x =>
    cases x with
    | nan =>
      refine ⟨fun _ => trivial, fun _ e he => ?_⟩
      cases he
      rfl
    | inf negative =>
      refine ⟨fun h => absurd (h _ rfl) (by decide), fun h => h.elim⟩
    | finite x =>
      refine ⟨fun _ => trivial, fun _ e he => (by cases he)⟩
  | str text =>
    refine ⟨fun _ => trivial, fun _ e he => ?_⟩
    cases hparse : IntText.parse text with
    | none =>
      simp only [toInt, hparse] at he
      cases he
      rfl
    | some value =>
      simp only [toInt, hparse] at he
      cases he

theorem reported_raises [IntText] {fields : List (List Nat × Value PyFloat)} {name : String} :
    (∀ e, reported fields name = .error e → e.isValueError = true) ↔
      ∀ value, fields.lookup (codePoints name) = some value → Readable value := by
  unfold reported
  cases hvalue : fields.lookup (codePoints name) with
  | none => exact ⟨fun _ value hc => (by cases hc), fun _ e hc => (by cases hc)⟩
  | some value =>
    simp only
    rw [toInt_raises]
    exact ⟨fun h other ho => Option.some.inj ho ▸ h, fun h => h value rfl⟩

theorem toDouble_one : toDouble 1 = .finite 1 := by decide +kernel

theorem toDouble_not_nan (x : ℚ) : toDouble x ≠ .nan := by
  unfold toDouble
  simp only
  split
  next => exact fun hc => (by cases hc)
  next => exact fun hc => (by cases hc)

theorem quotient_raises {passed total : ℤ} :
    (∀ e, quotient passed total = .error e → e.isValueError = true) ↔
      ∀ negative, total ≠ 0 → toDouble (passed / total) ≠ .inf negative := by
  unfold quotient
  by_cases hzero : total = 0
  · rw [if_pos hzero]
    exact ⟨fun _ _ hc => absurd hzero hc, fun _ e hc => (by cases hc)⟩
  · rw [if_neg hzero]
    cases hscore : toDouble (passed / total) with
    | nan => exact absurd hscore (toDouble_not_nan _)
    | inf negative =>
      exact ⟨fun h => absurd (h _ rfl) (by decide), fun h => absurd rfl (h negative hzero)⟩
    | finite score =>
      exact ⟨fun _ _ _ hc => (by cases hc), fun _ e hc => (by cases hc)⟩

theorem validateScore_raises {score : Option ℚ} {e : Raised} (h : validateScore score = .error e) :
    e.isValueError = true := by
  unfold validateScore at h
  split at h
  next => cases h
  next =>
    split at h
    next => cases h
    next =>
      cases h
      rfl

theorem validateScore_some {score : ℚ} (h : 0 ≤ score ∧ score ≤ 1) :
    validateScore (some score) = .ok (some ⟨score, h⟩) :=
  dif_pos h

/-- `int` reads the two counts, their quotient is a double, and a full pass is claimed only for as
many tests as there are, in a run that exited with 0. -/
def SafeCounts [IntText] (tests : List String) (result : SandboxResult)
    (fields : List (List Nat × Value PyFloat)) : Prop :=
  (∀ value, fields.lookup (codePoints "total") = some value → Readable value) ∧
  ∀ total, reported fields "total" = .ok total →
    (∀ value, fields.lookup (codePoints "passed") = some value → Readable value) ∧
    ∀ passed, reported fields "passed" = .ok passed →
      (∀ negative, total ≠ 0 → toDouble (passed / total) ≠ .inf negative) ∧
      (passed = total → 0 < total → result.exitCode = some 0 ∧ total = tests.length)

/-- The last line with the prefix nests no deeper than the interpreter and, in a run that ended in
time, is an object of safe counts, or `null`, or not JSON. -/
structure Clean [IntText] (bounds : Bounds) (tests : List String) (result : SandboxResult) : Prop where
  shallow : ∀ e, parseResult bounds result.stdout = .error e → e.isValueError = true
  object : result.timedOut = false → ∀ parsed, parseResult bounds result.stdout = .ok parsed →
    parsed = .null ∨ ∃ fields, parsed = .obj fields ∧ SafeCounts tests result fields

namespace CodingInterviewTool

/-- The report on the last line with the prefix: the configured tests, all of them passed. -/
def ReportsAll [IntText] (bounds : Bounds) (tests : List String) (result : SandboxResult) : Prop :=
  ∃ fields, parseResult bounds result.stdout = .ok (.obj fields) ∧
    reported fields "total" = .ok (tests.length : ℤ) ∧
    reported fields "passed" = .ok (tests.length : ℤ)

/-- What an evaluation of a run owes: it raises `ValueError` at most, and calls a run passed only if
that ended in time, exited with 0 and reports all of the tests. -/
structure Owes [IntText] (bounds : Bounds) (tests : List String) (result : SandboxResult)
    (out : Except Raised CodingEvaluation) : Prop where
  total : ∀ e, out = .error e → e.isValueError = true
  honest : ∀ evaluation, out = .ok evaluation → evaluation.passed = some true →
    result.timedOut = false ∧ result.exitCode = some 0 ∧ ReportsAll bounds tests result

section Rules

variable [IntText] {tool : CodingInterviewTool} {invocation : ToolInvocation}
  {submission : ToolSubmission} {tests : List String} {result : SandboxResult}

theorem assess_obj_ok {fields : List (List Nat × Value PyFloat)} {evaluation : CodingEvaluation}
    (h : assess invocation submission result (.obj fields) = .ok evaluation) :
    ∃ total passed, reported fields "total" = .ok total ∧ reported fields "passed" = .ok passed ∧
      evaluation.passed = some (decide (passed = total ∧ 0 < total)) := by
  obtain ⟨total, htotal, h⟩ := ExceptRules.bind_ok h
  obtain ⟨passed, hpassed, h⟩ := ExceptRules.bind_ok h
  obtain ⟨_, _, h⟩ := ExceptRules.bind_ok h
  obtain ⟨_, _, h⟩ := ExceptRules.bind_ok h
  cases h
  exact ⟨total, passed, htotal, hpassed, rfl⟩

/-- A full pass scores 1, so nothing stands in its way. -/
theorem assess_full {fields : List (List Nat × Value PyFloat)} {total : ℤ} (hpos : 0 < total)
    (htotal : reported fields "total" = .ok total) (hpassed : reported fields "passed" = .ok total) :
    ∃ evaluation, assess invocation submission result (.obj fields) = .ok evaluation ∧
      evaluation.passed = some true := by
  have hne : (total : ℚ) ≠ 0 := by exact_mod_cast ne_of_gt hpos
  have hquotient : quotient total total = .ok (some 1) := by
    unfold quotient
    rw [if_neg (ne_of_gt hpos), div_self hne, toDouble_one]
  have hscore := validateScore_some (⟨by decide, by decide⟩ : (0 : ℚ) ≤ 1 ∧ (1 : ℚ) ≤ 1)
  unfold assess
  simp only
  rw [htotal, ExceptRules.ok_bind, hpassed, ExceptRules.ok_bind, hquotient, ExceptRules.ok_bind,
    hscore, ExceptRules.ok_bind]
  exact ⟨_, rfl, congrArg some (decide_eq_true ⟨rfl, hpos⟩)⟩

theorem assess_obj_raises {fields : List (List Nat × Value PyFloat)} :
    (∀ e, assess invocation submission result (.obj fields) = .error e → e.isValueError = true) ↔
      (∀ value, fields.lookup (codePoints "total") = some value → Readable value) ∧
      ∀ total, reported fields "total" = .ok total →
        (∀ value, fields.lookup (codePoints "passed") = some value → Readable value) ∧
        ∀ passed, reported fields "passed" = .ok passed →
          ∀ negative, total ≠ 0 → toDouble (passed / total) ≠ .inf negative := by
  unfold assess
  simp only
  constructor
  · intro h
    refine ⟨reported_raises.mp fun e he => h e (by rw [he]; rfl), fun total htotal => ?_⟩
    rw [htotal] at h
    refine ⟨reported_raises.mp fun e he => h e (by rw [he]; rfl), fun passed hpassed => ?_⟩
    rw [hpassed] at h
    exact quotient_raises.mp fun e he => h e (by rw [ExceptRules.ok_bind, ExceptRules.ok_bind, he]; rfl)
  · rintro ⟨htotals, hcounts⟩ e he
    cases htotal : reported fields "total" with
    | error raised =>
      rw [htotal] at he
      cases he
      exact reported_raises.mpr htotals e htotal
    | ok total =>
      obtain ⟨hpasseds, hquotients⟩ := hcounts total htotal
      rw [htotal, ExceptRules.ok_bind] at he
      cases hpassed : reported fields "passed" with
      | error raised =>
        rw [hpassed] at he
        cases he
        exact reported_raises.mpr hpasseds e hpassed
      | ok passed =>
        rw [hpassed, ExceptRules.ok_bind] at he
        cases hquotient : quotient passed total with
        | error raised =>
          rw [hquotient] at he
          cases he
          exact quotient_raises.mpr (hquotients passed hpassed) e hquotient
        | ok score =>
          rw [hquotient, ExceptRules.ok_bind] at he
          cases hscore : validateScore score with
          | error raised =>
            rw [hscore] at he
            cases he
            exact validateScore_raises hscore
          | ok score =>
            rw [hscore, ExceptRules.ok_bind] at he
            cases he

theorem assess_owes_iff {bounds : Bounds} {fields : List (List Nat × Value PyFloat)}
    (hin : result.timedOut = false) (hparsed : parseResult bounds result.stdout = .ok (.obj fields)) :
    Owes bounds tests result (assess invocation submission result (.obj fields)) ↔
      SafeCounts tests result fields := by
  constructor
  · rintro ⟨hraises, hhonest⟩
    obtain ⟨htotals, hcounts⟩ := assess_obj_raises.mp hraises
    refine ⟨htotals, fun total htotal => ⟨(hcounts total htotal).1, fun passed hpassed =>
      ⟨(hcounts total htotal).2 passed hpassed, fun heq hpos => ?_⟩⟩⟩
    subst heq
    have hfull : ∃ evaluation, assess invocation submission result (.obj fields) = .ok evaluation ∧
        evaluation.passed = some true := assess_full hpos htotal hpassed
    obtain ⟨evaluation, heval, hpass⟩ := hfull
    obtain ⟨_, hexit, fields', hparsed', htotal', _⟩ := hhonest evaluation heval hpass
    rw [hparsed] at hparsed'
    cases hparsed'
    rw [htotal] at htotal'
    exact ⟨hexit, Except.ok.inj htotal'⟩
  · rintro ⟨htotals, hcounts⟩
    refine ⟨assess_obj_raises.mpr ⟨htotals, fun total htotal => ⟨(hcounts total htotal).1,
      fun passed hpassed => ((hcounts total htotal).2 passed hpassed).1⟩⟩, ?_⟩
    intro evaluation heval hpass
    obtain ⟨total, passed, htotal, hpassed, heq⟩ := assess_obj_ok heval
    rw [heq, Option.some.injEq, decide_eq_true_eq] at hpass
    obtain ⟨rfl, hpos⟩ := hpass
    obtain ⟨hexit, hall⟩ := ((hcounts passed htotal).2 passed hpassed).2 rfl hpos
    rw [hall] at htotal hpassed
    exact ⟨hin, hexit, fields, hparsed, htotal, hpassed⟩

/-- A run is accounted for exactly if its report is clean. -/
theorem judge_owes_iff : Owes tool.bounds tests result (tool.judge invocation submission result) ↔
    Clean tool.bounds tests result := by
  unfold judge
  cases hparsed : parseResult tool.bounds result.stdout with
  | error raised =>
    constructor
    · intro h
      refine ⟨fun e he => ?_, fun _ parsed hc => ?_⟩
      · rw [hparsed] at he
        cases he
        exact h.total _ rfl
      · rw [hparsed] at hc
        cases hc
    · intro h
      refine ⟨fun e he => ?_, fun evaluation hc => (by cases hc)⟩
      cases he
      exact h.shallow _ hparsed
  | ok parsed =>
    rw [ExceptRules.ok_bind]
    have hshallow : ∀ e, parseResult tool.bounds result.stdout = .error e → e.isValueError = true := by
      intro e he
      rw [hparsed] at he
      cases he
    cases htime : result.timedOut with
    | true =>
      simp only [if_true]
      refine ⟨fun _ => ⟨hshallow, fun hc => ?_⟩, fun _ => ⟨fun e hc => (by cases hc), ?_⟩⟩
      · rw [htime] at hc
        cases hc
      · intro evaluation heval hpass
        cases heval
        cases hpass
    | false =>
      simp only [Bool.false_eq_true, if_false]
      have hclean : Clean tool.bounds tests result ↔
          (parsed = .null ∨ ∃ fields, parsed = .obj fields ∧ SafeCounts tests result fields) := by
        refine ⟨fun h => h.object htime parsed hparsed, fun h => ⟨hshallow, fun _ other ho => ?_⟩⟩
        rw [hparsed] at ho
        cases ho
        exact h
      rw [hclean]
      cases parsed with
      | null =>
        refine ⟨fun _ => .inl rfl, fun _ => ⟨fun e hc => (by cases hc), ?_⟩⟩
        intro evaluation heval hpass
        cases heval
        cases hpass
      | obj fields =>
        rw [assess_owes_iff htime hparsed]
        constructor
        · exact fun h => .inr ⟨fields, rfl, h⟩
        · rintro (hc | ⟨_, hfields, h⟩)
          · cases hc
          · cases hfields
            exact h
      | bool | int | float | str | arr =>
        constructor
        · exact fun h => absurd (h.total _ rfl) (by decide)
        · rintro (hc | ⟨_, hc, _⟩)
          · cases hc
          · cases hc

/-- What `evaluate` owes of any call. -/
structure Accountable (tool : CodingInterviewTool) (invocation : ToolInvocation)
    (submission : ToolSubmission) : Prop where
  total : ∀ e, tool.evaluate invocation submission = .error e → e.isValueError = true
  honest : ∀ evaluation, tool.evaluate invocation submission = .ok evaluation →
    evaluation.passed = some true → ∃ source challenge result,
      sourceCode submission = some source ∧ tool.challenges invocation.id = some challenge ∧
      tool.runPython source (buildHarness (challenge.publicTests ++ challenge.hiddenTests))
        challenge.timeoutSeconds = .ok result ∧
      result.timedOut = false ∧ result.exitCode = some 0 ∧
      ReportsAll tool.bounds (challenge.publicTests ++ challenge.hiddenTests) result
  scored : ∀ evaluation score, tool.evaluate invocation submission = .ok evaluation →
    evaluation.score = some score → (0 : ℚ) ≤ score ∧ (score : ℚ) ≤ 1

/-- An evaluation is accountable exactly if the report of its run, where there is a run, is
clean. -/
theorem coding_accountable_iff (tool : CodingInterviewTool) (invocation : ToolInvocation)
    (submission : ToolSubmission) : Accountable tool invocation submission ↔
      ∀ source challenge result, sourceCode submission = some source →
        tool.challenges invocation.id = some challenge →
        tool.runPython source (buildHarness (challenge.publicTests ++ challenge.hiddenTests))
          challenge.timeoutSeconds = .ok result →
        Clean tool.bounds (challenge.publicTests ++ challenge.hiddenTests) result := by
  constructor
  · rintro ⟨htotal, hhonest, _⟩ source challenge result hsource hchallenge hresult
    have heval : tool.evaluate invocation submission = tool.judge invocation submission result := by
      unfold evaluate
      simp only [hsource, hchallenge, hresult]
    rw [heval] at htotal hhonest
    have howes : Owes tool.bounds (challenge.publicTests ++ challenge.hiddenTests) result
        (tool.judge invocation submission result) ↔ _ := judge_owes_iff
    refine howes.mp ⟨htotal, fun evaluation he hpass => ?_⟩
    obtain ⟨source', challenge', result', hs, hc, hr, hrun⟩ := hhonest evaluation he hpass
    rw [hsource] at hs
    cases hs
    rw [hchallenge] at hc
    cases hc
    rw [hresult] at hr
    cases hr
    exact hrun
  · intro h
    refine ⟨?_, ?_, fun _ score _ _ => score.property⟩
    · intro e he
      unfold evaluate at he
      split at he
      next => cases he
      next source hsource =>
        split at he
        next =>
          cases he
          rfl
        next challenge hchallenge =>
          simp only at he
          split at he
          next => cases he
          next result hresult =>
            exact (judge_owes_iff.mpr (h source challenge result hsource hchallenge hresult)).total e he
    · intro evaluation he hpass
      unfold evaluate at he
      split at he
      next =>
        cases he
        cases hpass
      next source hsource =>
        split at he
        next => cases he
        next challenge hchallenge =>
          simp only at he
          split at he
          next =>
            cases he
            cases hpass
          next result hresult =>
            exact ⟨source, challenge, result, hsource, hchallenge, hresult,
              (judge_owes_iff.mpr (h source challenge result hsource hchallenge hresult)).honest
                evaluation he hpass⟩

end Rules

section Fixtures

/-- No text reads as an integer. -/
@[reducible] def noInt : IntText where
  parse _ := none

attribute [local instance] noInt

def plainChallenge : PrivateChallenge where
  id := "challenge"
  publicTests := ["assert add(1, 2) == 3"]
  hiddenTests := ["assert add(20, 22) == 42"]
  timeoutSeconds := 5

/-- A tool whose sandbox always prints the same. -/
def printingTool (exitCode : ℤ) (stdout : String) : CodingInterviewTool where
  challenges _ := some plainChallenge
  runPython _ _ _ := .ok { exitCode := some exitCode, stdout, durationMs := 1 }
  bounds := { maxDigits := 4300, maxDepth := 1000 }

def codingInvocation : ToolInvocation where
  id := "tool"
  kind := .coding
  title := "Implement add"
  instructions := "Implement add(a, b)."

def codingSubmission : ToolSubmission where
  id := "submission"
  toolId := "tool"
  content := [("code", .str "pass")]

/-- The line that a submission prints of itself before it exits with 1. -/
def forgedLine : String := "__NORA_TEST_RESULT__\x7b\"passed\": 7, \"total\": 7\x7d\n"

theorem coding_not_accountable :
    ¬Accountable (printingTool 1 forgedLine) codingInvocation codingSubmission ∧
      ¬Accountable (printingTool 0 "__NORA_TEST_RESULT__[]\n") codingInvocation codingSubmission := by
  constructor
  · intro h
    have hpassed : ((printingTool 1 forgedLine).evaluate codingInvocation codingSubmission).map
        CodingEvaluation.passed = .ok (some true) := by
      decide +kernel
    obtain ⟨evaluation, heval, hpass⟩ := ExceptRules.map_ok hpassed
    obtain ⟨source, challenge, result, _, _, hrun, _, hexit, _⟩ := h.honest evaluation heval hpass
    cases hrun
    cases hexit
  · intro h
    have hraised : ((printingTool 0 "__NORA_TEST_RESULT__[]\n").evaluate codingInvocation
        codingSubmission).map CodingEvaluation.passed =
          .error (.other "AttributeError" "object has no attribute 'get'") := by
      decide +kernel
    cases heval : (printingTool 0 "__NORA_TEST_RESULT__[]\n").evaluate codingInvocation
        codingSubmission with
    | ok evaluation =>
      rw [heval] at hraised
      cases hraised
    | error e =>
      have hvalue := h.total e heval
      rw [heval] at hraised
      cases hraised
      cases hvalue

end Fixtures

end CodingInterviewTool

end NoraInterviewer
