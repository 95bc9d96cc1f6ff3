import Keirin.Lemmas.HostedWorld

/-!
# The clients are safe together

What one command of a client does to the log, and the rule of the team: every schedule keeps the invariant of the system, and what a
client returned is as it heard.
-/

namespace Keirin

namespace Hosted

open QueueEdge (EdgeCmd DbError)
open Queue (Row Entry)

variable {T : Type} {env : Env T} {t : T} {w w' : World T}

/-- What a statement added to the log, by its reply. -/
structure Added (t : T) (w w' : World T) (c : EdgeCmd) (r : c.Reply) (items : List (Item T)) : Prop where
  log : w'.log = w.log ++ items
  own : ∀ i ∈ items, i.thread = t
  quiet : ∀ call, .invoked t call ∉ items
  transacts : ∀ call row, (⟨c, r⟩ : Σ c : EdgeCmd, c.Reply) = ⟨.transact call, .ok row⟩ →
    ∃ e locked, .entry t e ∈ items ∧ e.tx.call = withLocked locked call ∧ e.outcome = .ok row
  selects : ∀ taskId found, (⟨c, r⟩ : Σ c : EdgeCmd, c.Reply) = ⟨.select taskId, .ok found⟩ → ∃ ledger, .read t taskId found ledger ∈ items

/-- A statement of a client keeps the invariant. -/
theorem carryOut_step (h : WorldOk env w) {d : Decision} {c : EdgeCmd} {r : c.Reply}
    (hc : carryOut env.iso (env.caller t) t d c w = some (r, w')) : WorldOk env w' ∧ ∃ items, Added t w w' c r items := by
  cases c with
  | transact call =>
    obtain ⟨e, hlog, -, hcall, -, -, hout⟩ := transact_queue hc
    refine ⟨h.transact hc, [.entry t e], hlog, fun i hi => ?_, fun call' hi => ?_, fun call' row heq => ?_, fun taskId found heq => ?_⟩
    · rw [List.mem_singleton.1 hi]
      rfl
    · cases List.mem_singleton.1 hi
    · cases heq
      exact ⟨e, d.locked, List.mem_singleton_self _, hcall, hout row rfl⟩
    · cases heq
  | select taskId =>
    cases hc
    refine ⟨h.read taskId _, _, rfl, fun i hi => ?_, fun call' hi => ?_, fun call' row heq => ?_, fun taskId' found heq => ?_⟩
    · rw [List.mem_singleton.1 hi]
      rfl
    · cases List.mem_singleton.1 hi
    · cases heq
    · cases heq
      exact ⟨_, List.mem_singleton_self _⟩
  | activity body =>
    simp only [carryOut] at hc
    split at hc
    · split at hc
      · cases hc
        refine ⟨h.table _, [], (List.append_nil _).symm, fun i hi => ?_, fun call' hi => ?_, fun call' row heq => ?_,
          fun taskId' found heq => ?_⟩
        · cases hi
        · cases hi
        · cases heq
        · cases heq
      · cases hc
    · cases hc

section Known

variable {told : Told} {c : NetCmd} {r : c.Reply}

/-- A command that is no statement and no call tells nothing of the log. -/
theorem KnownTo.idle (h : KnownTo t told w) (hno : ∀ c', c ≠ .statement c') : KnownTo t (told ++ [⟨c, r⟩]) w := by
  have hold {c' : EdgeCmd} {r' : c'.Reply} (htold : toldOf (told ++ [⟨c, r⟩]) c' r') : toldOf told c' r' := by
    rcases List.mem_append.1 htold with hmem | hmem
    · exact hmem
    · exact absurd (congrArg Sigma.fst (List.mem_singleton.1 hmem)).symm (hno c')
  refine ⟨fun call row htold => h.transacts call row (hold htold), fun taskId found htold => h.selects taskId found (hold htold),
    fun call hmem => ?_⟩
  unfold toldCalls
  rw [List.filterMap_append]
  exact List.mem_append_left _ (h.invoked call hmem)

/-- What a statement tells goes back to what it added; `reply` is what it replied where it was heard. -/
theorem KnownTo.statement {c : EdgeCmd} {r reply : c.Reply} (h : KnownTo t told w) {items : List (Item T)} (ha : Added t w w' c r items)
    (hreply : reply = r ∨ ∃ e, reply = failed c e) : KnownTo t (told ++ [⟨.statement c, reply⟩]) w' := by
  have hnew {c' : EdgeCmd} {r' : c'.Reply} (htold : toldOf (told ++ [⟨.statement c, reply⟩]) c' r') :
      toldOf told c' r' ∨ (⟨c, reply⟩ : Σ c : EdgeCmd, c.Reply) = ⟨c', r'⟩ := by
    rcases List.mem_append.1 htold with hmem | hmem
    · exact .inl hmem
    · have heq := List.mem_singleton.1 hmem
      cases heq
      exact .inr rfl
  refine ⟨fun call row htold => ?_, fun taskId found htold => ?_, fun call hmem => ?_⟩
  · rcases hnew htold with hold | heq
    · obtain ⟨e, locked, hmem, hcall, hout⟩ := h.transacts call row hold
      exact ⟨e, locked, ha.log ▸ List.mem_append_left _ hmem, hcall, hout⟩
    · rcases hreply with rfl | ⟨e, rfl⟩
      · obtain ⟨e, locked, hmem, hcall, hout⟩ := ha.transacts call row heq
        exact ⟨e, locked, ha.log ▸ List.mem_append_right _ hmem, hcall, hout⟩
      · cases c <;> cases heq
  · rcases hnew htold with hold | heq
    · obtain ⟨ledger, hmem⟩ := h.selects taskId found hold
      exact ⟨ledger, ha.log ▸ List.mem_append_left _ hmem⟩
    · rcases hreply with rfl | ⟨e, rfl⟩
      · obtain ⟨ledger, hmem⟩ := ha.selects taskId found heq
        exact ⟨ledger, ha.log ▸ List.mem_append_right _ hmem⟩
      · cases c <;> cases heq
  · rw [ha.log] at hmem
    rcases List.mem_append.1 hmem with hmem | hmem
    · unfold toldCalls
      rw [List.filterMap_append]
      exact List.mem_append_left _ (h.invoked call hmem)
    · exact absurd hmem (ha.quiet call)

/-- A call that was started. -/
theorem KnownTo.invoke (h : KnownTo t told w) (call : ActionCall) :
    KnownTo t (told ++ [⟨.invoke call, ()⟩]) { w with log := w.log ++ [.invoked t call] } := by
  have hold {c' : EdgeCmd} {r' : c'.Reply} (htold : toldOf (told ++ [⟨.invoke call, ()⟩]) c' r') : toldOf told c' r' := by
    rcases List.mem_append.1 htold with hmem | hmem
    · exact hmem
    · exact absurd (congrArg Sigma.fst (List.mem_singleton.1 hmem)) (by simp)
  refine ⟨fun call' row htold => ?_, fun taskId found htold => ?_, fun call' hmem => ?_⟩
  · obtain ⟨e, locked, hmem, hcall, hout⟩ := h.transacts call' row (hold htold)
    exact ⟨e, locked, List.mem_append_left _ hmem, hcall, hout⟩
  · obtain ⟨ledger, hmem⟩ := h.selects taskId found (hold htold)
    exact ⟨ledger, List.mem_append_left _ hmem⟩
  · unfold toldCalls
    rw [List.filterMap_append]
    rcases List.mem_append.1 hmem with hmem | hmem
    · exact List.mem_append_left _ (h.invoked call' hmem)
    · cases List.mem_singleton.1 hmem
      exact List.mem_append_right _ (List.mem_singleton_self _)

end Known

/-- A command that changes nothing. -/
theorem contract_refl : (contract env).guar t w w := ⟨[], (List.append_nil _).symm, fun _ h => by cases h⟩

/-- One command of a client keeps the invariant, adds only to the log of the client, and tells the client what stands in the log. -/
theorem machine_step {told : Told} {c : NetCmd} {x : Choice} {r : c.Reply}
    (hmay : MayServe env.iso env.httpStatus (ClientMay env (env.client t)) told c) (hk : KnownTo t told w) (h : WorldOk env w)
    (hm : machine env.iso (env.caller t) t w c x = some (r, w')) :
    WorldOk env w' ∧ (contract env).guar t w w' ∧ KnownTo t (told ++ [⟨c, r⟩]) w' := by
  have hstatement {c : EdgeCmd} {r reply : c.Reply} {d : Decision} (hc : carryOut env.iso (env.caller t) t d c w = some (r, w'))
      (hreply : reply = r ∨ ∃ e, reply = failed c e) :
      WorldOk env w' ∧ (contract env).guar t w w' ∧ KnownTo t (told ++ [⟨.statement c, reply⟩]) w' := by
    obtain ⟨hw, items, ha⟩ := carryOut_step h hc
    exact ⟨hw, ⟨items, ha.log, ha.own⟩, hk.statement ha hreply⟩
  cases c with
  | now =>
    cases x with
    | time now =>
      cases hm
      exact ⟨h, contract_refl, hk.idle (by simp)⟩
    | _ => cases hm
  | utcnow =>
    cases x with
    | utc now =>
      cases hm
      exact ⟨h, contract_refl, hk.idle (by simp)⟩
    | _ => cases hm
  | send =>
    cases x with
    | sent =>
      cases hm
      exact ⟨h, contract_refl, hk.idle (by simp)⟩
    | refused e =>
      cases hm
      exact ⟨h, contract_refl, hk.idle (by simp)⟩
    | _ => cases hm
  | receive =>
    cases x with
    | arrive a =>
      cases hm
      exact ⟨h, contract_refl, hk.idle (by simp)⟩
    | _ => cases hm
  | statement c =>
    cases x with
    | done d => exact hstatement hm (.inl rfl)
    | undone e =>
      cases hm
      have ha : Added t w w c (failed c e) [] := by
        refine ⟨(List.append_nil _).symm, fun i hi => ?_, fun call hi => ?_, fun call row heq => ?_, fun taskId found heq => ?_⟩
        · cases hi
        · cases hi
        · cases c <;> cases heq
        · cases c <;> cases heq
      exact ⟨h, contract_refl, hk.statement ha (.inl rfl)⟩
    | unheard d e =>
      obtain ⟨⟨r', w''⟩, hc, hr⟩ := Option.map_eq_some_iff.1 hm
      cases hr
      exact hstatement hc (.inr ⟨e, rfl⟩)
    | _ => cases hm
  | invoke call =>
    cases x with
    | called =>
      cases hm
      obtain ⟨heard, hr, hclient⟩ := hmay call rfl
      refine ⟨h.invoke (h.authorized hk hr hclient), ⟨[.invoked t call], rfl, fun i hi => ?_⟩, hk.invoke call⟩
      rw [List.mem_singleton.1 hi]
      rfl
    | _ => cases hm
  | await call =>
    cases x with
    | answer a =>
      cases hm
      exact ⟨h, contract_refl, hk.idle (by simp)⟩
    | _ => cases hm

/-- What the other clients do. -/
theorem KnownTo.others {told : Told} (h : KnownTo t told w) {u : T} (hu : u ≠ t) (hguar : (contract env).guar u w w') :
    KnownTo t told w' := by
  obtain ⟨items, hlog, hown⟩ := hguar
  refine ⟨fun call row htold => ?_, fun taskId found htold => ?_, fun call hmem => ?_⟩
  · obtain ⟨e, locked, hmem, hcall, hout⟩ := h.transacts call row htold
    exact ⟨e, locked, hlog ▸ List.mem_append_left _ hmem, hcall, hout⟩
  · obtain ⟨ledger, hmem⟩ := h.selects taskId found htold
    exact ⟨ledger, hlog ▸ List.mem_append_left _ hmem⟩
  · rw [hlog] at hmem
    rcases List.mem_append.1 hmem with hmem | hmem
    · exact h.invoked call hmem
    · exact absurd (hown _ hmem).symm hu

theorem fresh_others {u : T} (hu : u ≠ t) (hguar : (contract env).guar u w w') (h : Fresh t w) : Fresh t w' := by
  obtain ⟨items, hlog, hown⟩ := hguar
  intro i hi
  rw [hlog] at hi
  rcases List.mem_append.1 hi with hi | hi
  · exact h i hi
  · rw [hown i hi]
    exact hu

/-- A client that has done nothing yet was told nothing. -/
theorem Fresh.known (h : Fresh t w) : KnownTo t [] w := by
  refine ⟨fun call row htold => ?_, fun taskId found htold => ?_, fun call hmem => ?_⟩
  · cases htold
  · cases htold
  · exact absurd rfl (h _ hmem)

/-- What a client returned is as it heard, and what it heard stands in the log. -/
def Reported (env : Env T) (t : T) (r : ClientResult) (w : World T) : Prop :=
  ∃ heard told, Returns env r heard ∧ Relayed env.iso env.httpStatus heard told ∧ KnownTo t told w

/-- A client that has done nothing yet is safe to start. -/
theorem clients_safe (env : Env T) : (team env).FreshSafe (contract env) Fresh (Reported env) := by
  intro t call s hi hfresh
  have hsafe : ((team env).body t call).Safe ((team env).setting (contract env) t) (fun r s => ∃ told,
      (∃ heard, Returns env r heard ∧ Relayed env.iso env.httpStatus heard told) ∧ KnownTo t told s) (fun _ _ => True) s := by
    refine Team.safe_of_follows (J := KnownTo t) ?_ ?_ (program_follows env (env.client t)) hfresh.known
    · intro told s c x r s' hmay hk hw hm
      exact ⟨trivial, machine_step hmay hk hw hm⟩
    · intro told s s' u hu _ _ hguar hk
      exact hk.others hu hguar
  refine hsafe.mono ?_ fun _ _ _ _ => trivial
  rintro r s' - ⟨told, ⟨heard, hreturns, hr⟩, hk⟩
  exact ⟨heard, told, hreturns, hr, hk⟩

variable [DecidableEq T]

/-- The invariant of the system holds along every schedule, and what a client has returned is as it heard. -/
theorem run_ok (env : Env T) (es : List (SchedEvent T Unit Choice)) :
    WorldOk env (run env es) ∧ ∀ t r, returned env es t = some r → Reported env t r (run env es) := by
  obtain ⟨hw, hreturned⟩ := Team.run_ready (clients_safe env) (fun t u a b hu hguar h => fresh_others hu hguar h)
    worldOk_initial (fun t i hi => by cases hi) es
  refine ⟨hw, fun t r hr => ?_⟩
  obtain ⟨p, hp, hvalue⟩ := Option.bind_eq_some_iff.1 hr
  cases p with
  | ret a =>
    cases hvalue
    exact hreturned t r hp
  | raise e => cases hvalue
  | cmd c k => cases hvalue

end Hosted

end Keirin
