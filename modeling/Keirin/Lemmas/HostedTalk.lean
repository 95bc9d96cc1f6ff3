import Keirin.Lemmas.HostedAnswers

/-!
# What a client hears over the network

A client hears replies to its requests; below, the edge functions are told the replies of the database. Every success a client heard
goes back to what was told (`Relayed`), and the calls of the actions are the same on both sides.
-/

namespace Keirin

namespace Hosted

open QueueEdge (EdgeCmd EdgeReply EdgeProg)

/-- What a client heard. -/
abbrev Heard := Prog.Talk ClientCmd ClientCmd.Reply

/-- What was told below. -/
abbrev Told := Prog.Talk NetCmd NetCmd.Reply

/-- The call that a command of a client starts. -/
def heardCall : ClientCmd → Option ActionCall
  | .invoke call => some call
  | _ => none

/-- The call that a command over the network starts. -/
def toldCall : NetCmd → Option ActionCall
  | .invoke call => some call
  | _ => none

/-- The calls of a client. -/
def heardCalls (heard : Heard) : List ActionCall := heard.filterMap fun m => heardCall m.1

/-- The calls below. -/
def toldCalls (told : Told) : List ActionCall := told.filterMap fun m => toldCall m.1

/-- The replies of the database that were told. -/
def toldOf (told : Told) : (c : EdgeCmd) → c.Reply → Prop := fun c r => ⟨.statement c, r⟩ ∈ told

/-- A client may issue any command, where it may start the calls that `ok` allows. -/
def MayIssue (ok : Heard → ActionCall → Prop) (heard : Heard) (c : ClientCmd) : Prop := ∀ call ∈ heardCall c, ok heard call

section Relayed

variable (iso : ℤ → String) (httpStatus : String → ℕ)

/-- What a client heard goes back to what was told. -/
structure Relayed (heard : Heard) (told : Told) : Prop where
  calls : heardCalls heard = toldCalls told
  answered : ∀ mode fields response, ⟨.request mode fields, .ok (.obj response)⟩ ∈ heard →
    Dict.getD response "success" .null = .bool true → Answered iso httpStatus (toldOf told) mode fields response

/-- The commands below that serve a client. -/
def MayServe (ok : Heard → ActionCall → Prop) (told : Told) (c : NetCmd) : Prop :=
  ∀ call ∈ toldCall c, ∃ heard, Relayed iso httpStatus heard told ∧ ok heard call

end Relayed

section Layers

variable {iso : ℤ → String} {httpStatus : String → ℕ} {ok : Heard → ActionCall → Prop} {heard : Heard} {told told' : Told} {T α : Type}

theorem relayed_nil : Relayed iso httpStatus [] [] := ⟨rfl, fun _ _ _ h => by cases h⟩

/-- More that was told, without a call. -/
theorem Relayed.extend (h : Relayed iso httpStatus heard told) (hpre : told <+: told') (hcalls : toldCalls told' = toldCalls told) :
    Relayed iso httpStatus heard told' := by
  refine ⟨h.calls.trans hcalls.symm, fun mode fields response hmem hs => ?_⟩
  exact (h.answered mode fields response hmem hs).mono fun c r hr => hpre.subset hr

/-- A command was heard that is no success of a request. -/
theorem Relayed.hear (h : Relayed iso httpStatus heard told) {c : ClientCmd} {r : c.Reply} (hcalls : heardCall c = none)
    (hno : ∀ mode fields response, (⟨c, r⟩ : Σ c : ClientCmd, c.Reply) = ⟨.request mode fields, .ok (.obj response)⟩ →
      Dict.getD response "success" .null = .bool true → Answered iso httpStatus (toldOf told) mode fields response) :
    Relayed iso httpStatus (heard ++ [⟨c, r⟩]) told := by
  refine ⟨?_, fun mode fields response hmem hs => ?_⟩
  · rw [← h.calls]
    unfold heardCalls
    simp [hcalls]
  · rcases List.mem_append.1 hmem with hmem | hmem
    · exact h.answered mode fields response hmem hs
    · exact hno mode fields response (List.mem_singleton.1 hmem).symm hs

theorem toldCalls_append {c : NetCmd} {r : c.Reply} (hcalls : toldCall c = none) : toldCalls (told ++ [⟨c, r⟩]) = toldCalls told := by
  unfold toldCalls
  simp [hcalls]

/-- One thing more was told, which is no call. -/
theorem Relayed.tell (h : Relayed iso httpStatus heard told) {c : NetCmd} {r : c.Reply} (hcalls : toldCall c = none) :
    Relayed iso httpStatus heard (told ++ [⟨c, r⟩]) := h.extend (List.prefix_append _ _) (toldCalls_append hcalls)

/-- A call is started on both sides. -/
theorem Relayed.invoke (h : Relayed iso httpStatus heard told) (call : ActionCall) :
    Relayed iso httpStatus (heard ++ [⟨.invoke call, ()⟩]) (told ++ [⟨.invoke call, ()⟩]) := by
  refine ⟨?_, fun mode fields response hmem hs => ?_⟩
  · have hcalls := h.calls
    unfold heardCalls toldCalls at hcalls ⊢
    rw [List.filterMap_append, List.filterMap_append, hcalls]
    rfl
  · rcases List.mem_append.1 hmem with hmem | hmem
    · exact (h.answered mode fields response hmem hs).mono fun c r hr => List.mem_append_left _ hr
    · exact absurd (congrArg Sigma.fst (List.mem_singleton.1 hmem)) (by simp)

theorem mayServe_of_none {c : NetCmd} (h : toldCall c = none) : MayServe iso httpStatus ok told c := by
  intro call hcall
  rw [h] at hcall
  cases hcall

/-- The edge functions start no call, and what they reply is yielded by what was told. -/
theorem statement_follows (p : Prog EdgeCmd EdgeCmd.Reply HostedError α) (told : Told) :
    (p.handle statement).Follows (Prog.listening (MayServe iso httpStatus ok))
      (fun a told' => told <+: told' ∧ toldCalls told' = toldCalls told ∧ p.Yields (toldOf told') a) told := by
  induction p generalizing told with
  | ret a => exact ⟨List.prefix_rfl, rfl, rfl⟩
  | raise e => trivial
  | cmd c k ih =>
    refine ⟨mayServe_of_none rfl, fun r _ => (ih r (told ++ [⟨.statement c, r⟩])).mono ?_⟩
    rintro a told' ⟨hpre, hcalls, hyields⟩
    refine ⟨(List.prefix_append _ _).trans hpre, hcalls.trans (toldCalls_append rfl), r, ?_, hyields⟩
    exact hpre.subset (List.mem_append_right _ List.mem_cons_self)

/-- A command of a client is served below. -/
theorem carry_follows (c : ClientCmd) (hok : MayIssue ok heard c) (h : Relayed iso httpStatus heard told) :
    (carry iso httpStatus c).Follows (Prog.listening (MayServe iso httpStatus ok))
      (fun r told' => Relayed iso httpStatus (heard ++ [⟨c, r⟩]) told') told := by
  have hother {c' : ClientCmd} {r : c'.Reply} {told' : Told} (hc : heardCall c' = none) (hr : ∀ mode fields, c' ≠ .request mode fields)
      (h : Relayed iso httpStatus heard told') : Relayed iso httpStatus (heard ++ [⟨c', r⟩]) told' := by
    refine h.hear hc fun mode fields response heq => ?_
    exact absurd (congrArg Sigma.fst heq) (hr mode fields)
  cases c with
  | now => exact ⟨mayServe_of_none rfl, fun r _ => hother rfl (by simp) (h.tell rfl)⟩
  | utcnow => exact ⟨mayServe_of_none rfl, fun r _ => hother rfl (by simp) (h.tell rfl)⟩
  | await call => exact ⟨mayServe_of_none rfl, fun r _ => hother rfl (by simp) (h.tell rfl)⟩
  | invoke call =>
    exact ⟨fun call' hcall => ⟨heard, h, hok call' hcall⟩, fun _ _ => h.invoke call⟩
  | request mode fields =>
    have hfailed {e : PyError} {told' : Told} (h : Relayed iso httpStatus heard told') :
        Relayed iso httpStatus (heard ++ [⟨.request mode fields, .error e⟩]) told' := by
      refine h.hear rfl fun mode' fields' response heq => ?_
      cases heq
    simp only [carry]
    split
    · exact hfailed h
    · rename_i body hbody
      refine ⟨mayServe_of_none rfl, fun r _ => ?_⟩
      have hsent := h.tell (c := .send) (r := r) rfl
      cases r with
      | some answer =>
        cases answer with
        | error e => exact hfailed hsent
        | ok refusal =>
          refine hsent.hear rfl fun mode' fields' response heq hs => ?_
          cases heq
          cases hs
      | none =>
        refine Prog.Follows.bind (statement_follows _ _) ?_
        rintro reply told' ⟨hpre, hcalls, hyields⟩
        refine ⟨mayServe_of_none rfl, fun arrival _ => ?_⟩
        refine ((hsent.extend hpre hcalls).tell rfl).hear rfl fun mode' fields' response heq hs => ?_
        obtain ⟨hrequest, hreceived⟩ := Sigma.mk.inj heq
        cases hrequest
        refine ⟨body, reply, hbody, ?_, heeded_of_received (eq_of_heq hreceived) hs⟩
        exact hyields.mono fun c r hr => List.mem_append_left _ hr

/-- A program of a client over the network. -/
theorem onNetwork_follows (env : Env T) {p : ClientProg α} {Q : α → Heard → Prop} (h : p.Follows (Prog.listening (MayIssue ok)) Q []) :
    (onNetwork env p).Follows (Prog.listening (MayServe env.iso env.httpStatus ok))
      (fun a told => ∃ heard, Q a heard ∧ Relayed env.iso env.httpStatus heard told) [] :=
  Prog.Follows.handle (J := Relayed env.iso env.httpStatus)
    (fun _ _ c hok hJ => (carry_follows c hok hJ).mono fun _ _ hr => ⟨trivial, hr⟩) h relayed_nil

end Layers

end Hosted

end Keirin
