import Keirin.Lemmas.CredentialAdapter
import Keirin.Lemmas.ResultTexts

/-!
# Credential material in task states and the ledger

The adapter scans the texts of what a tool returns. The runner writes more than these: the text of a message that is none, the
names of keys that are none, and what `asdict` makes of a result or an update. From a result that passed the scan no secret is
written just when none is in these.
-/

namespace Keirin

namespace PyValue

/-- A reply of the adapter whose converted texts hold no secret. -/
def CleanReply (repr : PyValue → String) (secrets : List String) (reply : ToolReply) : Prop :=
  ∀ v, reply = .value v → ∀ t ∈ v.converted repr, leaks secrets t = false

/-- What the runner takes over from an answer of the adapter is clean, if what it converts is. -/
theorem answerWithin_invoke {repr : PyValue → String} {secrets : List String} {reply : ToolReply}
    (h : CleanReply repr secrets reply) : AnswerWithin (fun t => leaks secrets t = false) (invoke repr secrets reply) := by
  intro r hr
  cases reply with
  | value v =>
    simp only [invoke] at hr
    split_ifs at hr with hscan
    · nomatch hr
    · exact (texts_returned repr (Bool.eq_false_iff.2 hscan) hr).2 (h v rfl)
  | _ => nomatch hr

/-- From a value that passes the scan the runner takes over no text that holds a secret just when none of the texts that arise by
its conversion does. And along every history of a task in which each action answers through the adapter, with such a value, or
brings known texts only, and the operator enters known texts only, the artifacts written and the messages of completed steps hold
texts without a secret and known texts only. -/
theorem credentialMaterial_persisted_iff (repr : PyValue → String) (secrets : List String) :
    (∀ (v : PyValue) (r : ActionResult), v.containsCredentialMaterial secrets = false → normaliseActionResult (v.returned repr) = .ok r →
      ((∀ t ∈ r.texts, leaks secrets t = false) ↔ ∀ t ∈ v.converted repr, leaks secrets t = false)) ∧
    (∀ (docRepr : Doc → String) (spec : TaskSpec) (ops : List FileStore.Op) (known : String → Prop),
      (∀ r choices, .reconcile r choices ∈ ops → ∀ u ∈ r.artifactUpdates, ∀ t ∈ u.texts, known t) →
      (∀ n c answer, .answered n c answer ∈ (FileStore.history docRepr spec ops).log → c.phase = .action →
        AnswerWithin known answer ∨ ∃ reply, CleanReply repr secrets reply ∧ answer = invoke repr secrets reply) →
      (FileStore.history docRepr spec ops).Within fun t => known t ∨ leaks secrets t = false) := by
  refine ⟨fun v r hscan hr => texts_returned repr hscan hr, ?_⟩
  intro docRepr spec ops known hops hanswers
  refine FileStore.history_within docRepr spec ops (fun r choices hr u hu t ht => .inl (hops r choices hr u hu t ht)) ?_
  intro n c answer hin hphase r hr t ht
  rcases hanswers n c answer hin hphase with hknown | ⟨reply, hclean, rfl⟩
  · exact .inl (hknown r hr t ht)
  · exact .inr (answerWithin_invoke hclean r hr t ht)

/-- A task of one step that runs through the adapter. -/
def signInTask : TaskSpec :=
  { taskId := "t1", title := "sign in", goal := "sign in once", allowedActions := ["sign_in"]
    steps := [{ stepId := "s1", action := "sign_in", args := [], verifyAction := Option.none, retrySafe := false, maxAttempts := 1 }]
    inputs := [], completionConditions := [], schemaVersion := TASK_SCHEMA_VERSION }

/-- A whole run of it in which the tool returns `v`. -/
def signIn (secrets : List String) (v : PyValue) : FileStore.World :=
  let ok := FileStore.Choice.ok "t"
  FileStore.history (fun _ => "") signInTask
    [.run ["sign_in"] []
      [ok, ok, ok, ok, ok, ok, ok, ok, ok, .answer (invoke (fun _ => "") secrets (.value v)), ok, ok, ok, ok, ok]]

/-- A message that is a number. -/
def numberMessage : PyValue := .dict [(.str "message", .num (.int 123456))]

/-- The number passes the scan, and the ledger holds the secret. -/
theorem numberMessage_persisted :
    numberMessage.containsCredentialMaterial ["123456"] = false ∧
      ∃ e ∈ (signIn ["123456"] numberMessage).ledger, e.2.eventType = "step_completed" ∧ e.2.message = .str "123456" ∧
        leaks ["123456"] "123456" = true := by
  decide +kernel

/-- A result with an artifact, and no key or message but texts. -/
def textResult : PyValue :=
  .dict [(.str "message", .str "done"),
    (.str "artifacts", .list [.dict [(.str "artifact_id", .str "a1"), (.str "kind", .str "file"),
      (.str "metadata", .dict [(.str "size", .num (.int 123456))])]])]

theorem credentialMaterial_persisted_iff_textResult :
    ((signIn ["123456"] textResult).file.map fun s => s.artifacts.map Prod.fst) = some ["a1"] ∧
      (signIn ["123456"] textResult).Within fun t => False ∨ leaks ["123456"] t = false := by
  refine ⟨by decide +kernel, (credentialMaterial_persisted_iff (fun _ => "") ["123456"]).2 (fun _ => "") signInTask _
    (fun _ => False) (fun r choices hr => nomatch List.mem_singleton.1 hr) ?_⟩
  intro n c answer hin _
  have hchoice := FileStore.answered_of_exec (FileStore.mark_written _ _) _ hin
  simp only [FileStore.World.initial, List.not_mem_nil, false_or, List.mem_cons, reduceCtorEq, FileStore.Choice.answer.injEq,
    or_false] at hchoice
  refine .inr ⟨.value textResult, ?_, hchoice⟩
  intro v hv
  cases hv
  decide +kernel

end PyValue

end Keirin
