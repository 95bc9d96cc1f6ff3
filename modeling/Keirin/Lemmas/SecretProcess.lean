import Keirin.Lemmas.SecretBackend
import Keirin.SecretProcess

/-!
# What the processes report

The child reports a conflict only after a rollback that succeeded, and no failure that is not ambiguous once the statement was
handed over; what it leaves in the memory is true of the write. The parent reads it only after a clean end, when nothing of the
write can change any more.
-/

namespace Keirin

namespace SecretProcess

/-! ## The operation of the child -/

/-- What a message says is true of the write. -/
structure Meant (message : Doc) (w : ChildWorld) : Prop where
  ok : message.get? "status" = some (.str "ok") → w.applied = true
  conflict : message.get? "status" = some (.str "conflict") → w.applied = false
  unavailable : message.get? "status" = some (.str "unavailable") → w.submitted = false

/-- A message whose length was set is true. -/
def Published (w : ChildWorld) : Prop :=
  w.length ≠ 0 → ∃ message, w.buffer = some message ∧ w.length = message.asciiLength ∧ Meant message w

/-- The child is safe: what it publishes is true. -/
abbrev ChildSafe {α : Type} (Q : α → ChildWorld → Prop) (p : ChildProg α) (w : ChildWorld) : Prop :=
  p.Safe (Setting.alone childMachine Published) Q (fun _ _ => True) w

/-- The outcome of an operation is true of the write. -/
structure Ended (outcome : Except BackendError Doc) (w : ChildWorld) : Prop where
  unpublished : w.length = 0
  ok : ∀ record, outcome = .ok record → w.applied = true
  conflict : outcome = .error .conflict → w.applied = false
  unavailable : outcome = .error .unavailable → w.submitted = false
  other : ∀ interrupt, outcome = .error (.other interrupt) → w.submitted = false

theorem Published.of_length {w : ChildWorld} (h : w.length = 0) : Published w := fun hne => absurd h hne

/-- The end of the child changes nothing. -/
theorem Published.exited {w : ChildWorld} (h : Published w) (code : Nat) : Published { w with exited := some code } := by
  intro hne
  obtain ⟨message, hbuffer, hlength, hok, hconflict, hunavailable⟩ := h hne
  exact ⟨message, hbuffer, hlength, ⟨hok, hconflict, hunavailable⟩⟩

variable {w w' : ChildWorld} {x : ChildChoice}

/-- The driver does not touch the memory. -/
theorem driverStep_length {c : DriverCmd} (h : driverStep w c x = some w') : w'.length = w.length := by
  unfold driverStep at h
  split at h
  · rw [← Option.some.inj h]
  · rw [← Option.some.inj h]
  · split at h
    · split at h
      · nomatch h
      · rw [← Option.some.inj h]
    · rw [← Option.some.inj h]
  · rw [← Option.some.inj h]

/-- A call of the driver before anything is published. -/
theorem call_safe {c : DriverCmd} {raised : CallError → ChildProg (Except BackendError Doc)}
    {returned : c.Value → ChildProg (Except BackendError Doc)} {Q : Except BackendError Doc → ChildWorld → Prop}
    (hw : w.length = 0)
    (hraised : ∀ x w' e, driverStep w c x = some w' → w'.length = 0 → x.raised = some e → ChildSafe Q (raised e) w')
    (hreturned : ∀ x w', driverStep w c x = some w' → w'.length = 0 → x.raised = none →
      ChildSafe Q (returned (driverValue x c)) w') :
    ChildSafe Q (PostgresSecretBackend.call c raised returned) w := by
  unfold PostgresSecretBackend.call
  refine Prog.safe_cmd_alone fun x r w' hm => ?_
  obtain ⟨s, hs, hm⟩ := Option.map_eq_some_iff.1 hm
  cases hm
  have hlen : w'.length = 0 := (driverStep_length hs).trans hw
  refine ⟨Published.of_length hlen, ?_⟩
  unfold replyOf
  cases hr : x.raised with
  | some e => exact hraised x w' e hs hlen hr
  | none => exact hreturned x w' hs hlen hr

/-- A call that does nothing to the write. -/
theorem call_safe_same {c : DriverCmd} {raised : CallError → ChildProg (Except BackendError Doc)}
    {returned : c.Value → ChildProg (Except BackendError Doc)} {Q : Except BackendError Doc → ChildWorld → Prop}
    (hw : w.length = 0) (hsame : ∀ x, driverStep w c x = some w) (hraised : ∀ e, ChildSafe Q (raised e) w)
    (hreturned : ∀ v, ChildSafe Q (returned v) w) : ChildSafe Q (PostgresSecretBackend.call c raised returned) w := by
  refine call_safe hw ?_ ?_
  · intro x w' e hs _ _
    rw [hsame x] at hs
    rw [← Option.some.inj hs]
    exact hraised e
  · intro x w' hs _ _
    rw [hsame x] at hs
    rw [← Option.some.inj hs]
    exact hreturned _

theorem ret_safe {α : Type} {Q : α → ChildWorld → Prop} {a : α} (h : Q a w) : ChildSafe Q (.ret a) w := by
  intro t he _
  cases he
  exact h

/-- Closing does nothing to the write. -/
theorem close_safe {p : Progress} {outcome : Except BackendError Doc} (h : Ended outcome w) :
    ChildSafe Ended (PostgresSecretBackend.close p outcome) w := by
  have hconnection : ChildSafe Ended (if p.connected then PostgresSecretBackend.call .closeConnection (fun _ => .ret outcome)
      (fun _ => .ret outcome) else .ret outcome) w := by
    split
    · exact call_safe_same h.unpublished (fun _ => rfl) (fun _ => ret_safe h) (fun _ => ret_safe h)
    · exact ret_safe h
  unfold PostgresSecretBackend.close
  simp only []
  split
  · exact call_safe_same h.unpublished (fun _ => rfl) (fun _ => hconnection) (fun _ => hconnection)
  · exact hconnection

/-- A failure is true of the write: a conflict is reported after a rollback only, and a failure that is not ambiguous only where
the statement was not handed over. -/
theorem ended_failure {p : Progress} {raised : Option CallError} {rolledBack : Bool} (hw : w.length = 0)
    (hsubmitted : p.submitted = false → w.submitted = false) (hrolled : rolledBack = true → w.applied = false) :
    Ended (.error (PostgresSecretBackend.failure true p raised rolledBack)) w := by
  unfold PostgresSecretBackend.failure
  cases hp : p.submitted with
  | true =>
    rw [if_pos rfl]
    split
    · rename_i hconflict
      simp only [Bool.and_eq_true] at hconflict
      exact ⟨hw, nofun, fun _ => hrolled hconflict.2, nofun, nofun⟩
    · exact ⟨hw, nofun, nofun, nofun, nofun⟩
  | false =>
    have hs := hsubmitted hp
    rw [if_neg (by decide)]
    split
    · exact ⟨hw, nofun, nofun, nofun, fun _ _ => hs⟩
    · exact ⟨hw, nofun, nofun, fun _ => hs, nofun⟩

/-- What follows an exception is safe. -/
theorem fail_safe {p : Progress} {raised : Option CallError} (hw : w.length = 0)
    (hsubmitted : p.submitted = false → w.submitted = false) : ChildSafe Ended (PostgresSecretBackend.fail true p raised) w := by
  unfold PostgresSecretBackend.fail
  simp only []
  split
  · refine call_safe hw ?_ ?_
    · intro x w' e hs hlen hx
      simp only [driverStep, hx, reduceCtorEq, if_false] at hs
      rw [← Option.some.inj hs] at hlen ⊢
      exact close_safe (ended_failure hlen hsubmitted nofun)
    · intro x w' hs hlen hx
      simp only [driverStep, hx, if_true] at hs
      split at hs
      · nomatch hs
      · rename_i happlied
        rw [← Option.some.inj hs] at hlen ⊢
        exact close_safe (ended_failure hlen hsubmitted fun _ => Bool.eq_false_iff.2 happlied)
  · exact close_safe (ended_failure hw hsubmitted nofun)

/-- The operation reports what is true of the write. -/
theorem operate_safe {binding : CredentialBinding} {key : String} {expected : Option Int} {replacement : Doc}
    (hw : w.length = 0) (hsubmitted : w.submitted = false) :
    ChildSafe Ended (PostgresSecretBackend.operate binding key expected replacement true) w := by
  have hfail : ∀ (p : Progress) (raised : Option CallError), ChildSafe Ended (PostgresSecretBackend.fail true p raised) w :=
    fun p raised => fail_safe hw fun _ => hsubmitted
  unfold PostgresSecretBackend.operate
  simp only []
  split
  · exact hfail _ _
  rename_i payload _
  refine call_safe_same hw (fun _ => rfl) (fun e => hfail _ _) fun _ => ?_
  refine call_safe_same hw (fun _ => rfl) (fun e => hfail _ _) fun off => ?_
  split
  · exact hfail _ _
  refine call_safe_same hw (fun _ => rfl) (fun e => hfail _ _) fun _ => ?_
  refine call_safe hw (fun x w' e hs hlen _ => fail_safe hlen nofun) fun x w₁ hs hlen hx => ?_
  -- from here on the statement was handed over, and executed
  have hpending : w₁.pending = true := by
    simp only [driverStep, ChildChoice.took, hx] at hs
    rw [← Option.some.inj hs]
    rfl
  have hfail₁ : ∀ (p : Progress) (raised : Option CallError), p.submitted = true →
      ChildSafe Ended (PostgresSecretBackend.fail true p raised) w₁ :=
    fun p raised hp => fail_safe hlen fun h => by rw [hp] at h; nomatch h
  refine call_safe_same hlen (fun _ => rfl) (fun e => hfail₁ _ _ rfl) fun first => ?_
  refine call_safe_same hlen (fun _ => rfl) (fun e => hfail₁ _ _ rfl) fun second => ?_
  split
  · exact hfail₁ _ _ rfl
  · rename_i result _
    refine call_safe hlen (fun x w' e hs hlen _ => fail_safe hlen nofun) fun x w₂ hs hlen hx => ?_
    refine close_safe ⟨hlen, fun _ _ => ?_, nofun, nofun, nofun⟩
    simp only [driverStep, ChildChoice.took, hx, hpending] at hs
    rw [← Option.some.inj hs]
    simp

/-! ## The child -/

/-- A message is left that is true. -/
theorem publish_safe {message : Doc} (hw : w.length = 0) (h : Meant message w) :
    ChildSafe (fun _ _ => True) (publish message) w := by
  have hexit : ∀ (code : Nat) (t : ChildWorld), Published t → ChildSafe (fun _ _ => True) (.cmd (.exit code) .ret) t := by
    intro code t ht
    refine Prog.safe_cmd_alone fun x r t' hm => ?_
    simp only [childMachine, Option.some.injEq] at hm
    obtain ⟨rfl, rfl⟩ := hm
    exact ⟨ht.exited code, ret_safe trivial⟩
  unfold publish
  refine Prog.safe_cmd_alone fun x r t hm => ?_
  simp only [childMachine, Option.some.injEq] at hm
  obtain ⟨rfl, rfl⟩ := hm
  refine ⟨Published.of_length hw, ?_⟩
  unfold replyOf
  cases hx : x.raised with
  | some e => exact hexit 1 _ (Published.of_length hw)
  | none =>
    simp only [ChildChoice.took, hx, Option.isNone_none, Bool.true_or, if_true]
    refine Prog.safe_cmd_alone fun y r t hm => ?_
    simp only [childMachine, Option.some.injEq] at hm
    obtain ⟨rfl, rfl⟩ := hm
    have hpublished : Published (if y.took = true then { w with buffer := some message, length := message.asciiLength }
        else { w with buffer := some message }) := by
      split
      · exact fun _ => ⟨message, rfl, rfl, ⟨h.ok, h.conflict, h.unavailable⟩⟩
      · exact Published.of_length hw
    refine ⟨hpublished, ?_⟩
    unfold replyOf
    split
    · exact hexit 1 _ hpublished
    · exact hexit 0 _ hpublished

theorem meant_ambiguous (w : ChildWorld) : Meant (statusMessage "ambiguous") w := by
  constructor <;> intro h <;> exact absurd h (by decide)

/-- The message of an outcome that is true is true. -/
theorem meant_messageOf {outcome : Except BackendError Doc} (h : Ended outcome w) :
    Meant (bounded true (messageOf true outcome)) w := by
  unfold bounded
  split
  · exact meant_ambiguous w
  · cases outcome with
    | ok record => exact ⟨fun _ => h.ok record rfl, fun hs => absurd hs (by simp [messageOf, recordMessage, Json.get?, Dict.get?]),
        fun hs => absurd hs (by simp [messageOf, recordMessage, Json.get?, Dict.get?])⟩
    | error e =>
      cases e with
      | conflict => exact ⟨fun hs => absurd hs (by decide), fun _ => h.conflict rfl, fun hs => absurd hs (by decide)⟩
      | ambiguousWrite => exact meant_ambiguous w
      | unavailable => exact ⟨fun hs => absurd hs (by decide), fun hs => absurd hs (by decide), fun _ => h.unavailable rfl⟩
      | other interrupt => exact meant_ambiguous w

/-- The child leaves a message that is true. -/
theorem child_safe {binding : CredentialBinding} {request : SecretRequest} (hwrite : request.write = true)
    (hw : w.length = 0) (hsubmitted : w.submitted = false) : ChildSafe (fun _ _ => True) (child binding request) w := by
  unfold child
  refine Prog.safe_cmd_alone fun x r t hm => ?_
  simp only [childMachine, Option.some.injEq] at hm
  obtain ⟨rfl, rfl⟩ := hm
  refine ⟨Published.of_length hw, ?_⟩
  unfold replyOf
  split
  · refine Prog.safe_cmd_alone fun x r t hm => ?_
    simp only [childMachine, Option.some.injEq] at hm
    obtain ⟨rfl, rfl⟩ := hm
    exact ⟨Published.of_length hw, ret_safe trivial⟩
  · rw [hwrite]
    refine Prog.safe_bind_alone (Q := Ended) (Published.of_length hw) ?_ ?_
    · refine Prog.safe_cmd_alone fun x r t hm => ?_
      simp only [childMachine, Option.some.injEq] at hm
      obtain ⟨rfl, rfl⟩ := hm
      refine ⟨Published.of_length hw, ?_⟩
      unfold replyOf
      split
      · exact ret_safe ⟨hw, nofun, nofun, nofun, fun _ _ => hsubmitted⟩
      · exact operate_safe hw hsubmitted
    · intro outcome t _ h
      exact publish_safe h.unpublished (meant_messageOf h)

/-! ## The child beside its parent -/

/-- Nothing of the write changes any more: the child was not spawned, or it is over. -/
def HostWorld.Settled (w : HostWorld) : Prop := w.child = none ∨ w.shared.exited.isSome = true

/-- What the child left is true, and what it has still to do is safe. -/
structure HostInv (w : HostWorld) : Prop where
  unspawned : w.child = none → w.shared.submitted = false
  published : Published w.shared
  running : ∀ p, w.child = some p → w.shared.exited = none → ChildSafe (fun _ _ => True) p w.shared

variable {h h' : HostWorld}

theorem HostWorld.Settled.step (hs : h.Settled) (s : ChildStep) : h.step s = h := by
  unfold HostWorld.step
  rcases hs with hs | hs
  · rw [hs]
  · obtain ⟨code, hcode⟩ := Option.isSome_iff_exists.1 hs
    rw [hcode]
    split <;> simp_all

theorem HostWorld.Settled.advance (hs : h.Settled) (steps : List ChildStep) : h.advance steps = h := by
  induction steps with
  | nil => rfl
  | cons s steps ih =>
    change (h.step s).advance steps = h
    rw [hs.step s]
    exact ih

theorem HostInv.step (hi : HostInv h) (s : ChildStep) : HostInv (h.step s) := by
  unfold HostWorld.step
  split
  · rename_i p code hchild hexited
    refine ⟨fun hn => ?_, hi.published.exited code, fun q _ hn => ?_⟩
    · rw [hchild] at hn
      nomatch hn
    · nomatch hn
  · rename_i p x hchild hexited
    split
    · rename_i shared p' hstep
      obtain ⟨hpublished, -, hsafe⟩ := (hi.running p hchild hexited).step rfl hi.published hstep
      refine ⟨nofun, hpublished, fun q hq _ => ?_⟩
      cases hq
      exact hsafe
    · exact hi
  · exact hi

theorem HostInv.advance (hi : HostInv h) (steps : List ChildStep) : HostInv (h.advance steps) := by
  induction steps generalizing h with
  | nil => exact hi
  | cons s steps ih => exact ih (hi.step s)

/-! ## The parent -/

abbrev HostSafe {α : Type} (Q : α → HostWorld → Prop) (p : ParentProg α) (h : HostWorld) : Prop :=
  p.Safe (Setting.alone hostMachine fun _ => True) Q (fun _ _ => False) h

/-- The outcome of an operation is true of the write, which is over unless the outcome is ambiguous; `P` is what is known of the
record that is returned. -/
structure Reported (P : Doc → Prop) (outcome : Except BackendError Doc) (h : HostWorld) : Prop where
  ok : ∀ record, outcome = .ok record → h.Settled ∧ h.shared.applied = true ∧ P record
  conflict : outcome = .error .conflict → h.Settled ∧ h.shared.applied = false
  unavailable : outcome = .error .unavailable → h.Settled ∧ h.shared.submitted = false
  other : ∀ interrupt, outcome = .error (.other interrupt) → h.Settled ∧ h.shared.submitted = false

variable {P : Doc → Prop} {outcome : Except BackendError Doc}

theorem reported_ambiguous (P : Doc → Prop) (h : HostWorld) : Reported P (.error .ambiguousWrite) h :=
  ⟨nofun, nofun, nofun, nofun⟩

theorem reported_unsubmitted (P : Doc → Prop) (interrupt : Option Bool) (hs : h.Settled) (hw : h.shared.submitted = false) :
    Reported P (outcomeOf (.unavailable interrupt)) h := by
  cases interrupt with
  | none => exact ⟨nofun, nofun, fun _ => ⟨hs, hw⟩, nofun⟩
  | some keyboard => exact ⟨nofun, nofun, nofun, fun _ _ => ⟨hs, hw⟩⟩

/-- A call other than that of `start` leaves the child to itself. -/
theorem hostMachine_child {c : ParentCmd} {x : ParentChoice} {r : c.Reply} (hm : hostMachine h c x = some (r, h'))
    (hc : ∀ binding request, c ≠ .start binding request) :
    h'.child = (h.advance x.advance).child ∧ h'.shared.exited = (h.advance x.advance).shared.exited ∧
      h'.shared.submitted = (h.advance x.advance).shared.submitted ∧
      h'.shared.applied = (h.advance x.advance).shared.applied := by
  cases c with
  | start binding request => exact absurd rfl (hc binding request)
  | _ =>
    cases hm
    exact ⟨rfl, rfl, rfl, rfl⟩

/-- A true report stays true. -/
theorem Reported.step {c : ParentCmd} {x : ParentChoice} {r : c.Reply} (ho : Reported P outcome h)
    (hm : hostMachine h c x = some (r, h')) (hc : ∀ binding request, c ≠ .start binding request) : Reported P outcome h' := by
  obtain ⟨hchild, hexited, hsubmitted, happlied⟩ := hostMachine_child hm hc
  have hsame : h.Settled → h'.Settled ∧ h'.shared.submitted = h.shared.submitted ∧ h'.shared.applied = h.shared.applied := by
    intro hs
    rw [hs.advance] at hchild hexited hsubmitted happlied
    refine ⟨?_, hsubmitted, happlied⟩
    unfold HostWorld.Settled
    rw [hchild, hexited]
    exact hs
  constructor
  · intro record hr
    obtain ⟨hs, hw, hP⟩ := ho.ok record hr
    obtain ⟨hs', -, happlied⟩ := hsame hs
    exact ⟨hs', happlied.trans hw, hP⟩
  · intro hr
    obtain ⟨hs, hw⟩ := ho.conflict hr
    obtain ⟨hs', -, happlied⟩ := hsame hs
    exact ⟨hs', happlied.trans hw⟩
  · intro hr
    obtain ⟨hs, hw⟩ := ho.unavailable hr
    obtain ⟨hs', hsubmitted, -⟩ := hsame hs
    exact ⟨hs', hsubmitted.trans hw⟩
  · intro interrupt hr
    obtain ⟨hs, hw⟩ := ho.other interrupt hr
    obtain ⟨hs', hsubmitted, -⟩ := hsame hs
    exact ⟨hs', hsubmitted.trans hw⟩

/-- A program that spawns nothing, and returns. -/
def Quiet {α : Type} : ParentProg α → Prop
  | .ret _ => True
  | .raise _ => False
  | .cmd c k => (∀ binding request, c ≠ .start binding request) ∧ ∀ r, Quiet (k r)

/-- A true report stays true while nothing is spawned. -/
theorem Reported.quiet {α : Type} {p : ParentProg α} {outcome' : Except BackendError Doc} (hp : Quiet p)
    (ho : Reported P outcome h) (ho' : Reported P outcome' h) :
    HostSafe (fun _ t => Reported P outcome t ∧ Reported P outcome' t) p h := by
  induction p generalizing h with
  | ret a =>
    intro t he _
    cases he
    exact ⟨ho, ho'⟩
  | raise e => exact hp.elim
  | cmd c k ih => exact Prog.safe_cmd_alone fun x r t hm => ⟨trivial, ih r (hp.2 r) (ho.step hm hp.1) (ho'.step hm hp.1)⟩

theorem stop_quiet {kill : Bool} {next : ParentProg Bool} (h : Quiet next) : Quiet (stop kill next) := by
  refine ⟨nofun, fun alive => ?_⟩
  cases alive with
  | error e => trivial
  | ok alive =>
    cases alive with
    | false => exact h
    | true =>
      refine ⟨nofun, fun r => ?_⟩
      cases r with
      | error e => trivial
      | ok _ =>
        refine ⟨nofun, fun r => ?_⟩
        cases r with
        | error e => trivial
        | ok _ => exact h

theorem closeProcess_quiet : Quiet closeProcess := by
  refine ⟨nofun, fun alive => ?_⟩
  cases alive with
  | error e => trivial
  | ok alive =>
    cases alive with
    | true => trivial
    | false =>
      refine ⟨nofun, fun r => ?_⟩
      cases r <;> trivial

/-- Reaping spawns nothing. -/
theorem reap_quiet : Quiet reap := stop_quiet (stop_quiet closeProcess_quiet)

theorem hostRet_safe {α : Type} {Q : α → HostWorld → Prop} {a : α} (hQ : Q a h) : HostSafe Q (.ret a) h := by
  intro t he _
  cases he
  exact hQ

theorem hostBind_safe {α β : Type} {Q : α → HostWorld → Prop} {Q' : β → HostWorld → Prop} {p : ParentProg α}
    {f : α → ParentProg β} (hp : HostSafe Q p h) (hf : ∀ a t, Q a t → HostSafe Q' (f a) t) : HostSafe Q' (p >>= f) h :=
  hp.bind (fun _ => rfl) trivial fun a t _ ha => hf a t ha

/-- The end of an operation: the report of a status that is true. -/
theorem finish_safe {quarantined : Bool} {held : Held} {interrupt : Option Bool} {status : Status}
    (hstatus : Reported P (outcomeOf status) h) (hstarted : held.started = false → h.Settled ∧ h.shared.submitted = false)
    (hlength : held.length = false → held.started = false) :
    HostSafe (fun result t => Reported P result.1 t) (finish true quarantined held interrupt status) h := by
  have hunknown : Reported P (outcomeOf (unknown held.started true interrupt)) h := by
    unfold unknown
    cases hs : held.started with
    | true => exact reported_ambiguous P h
    | false =>
      obtain ⟨hsettled, hsubmitted⟩ := hstarted hs
      exact reported_unsubmitted P interrupt hsettled hsubmitted
  unfold finish
  refine hostBind_safe (Q := fun _ t => Reported P (outcomeOf status) t ∧
    Reported P (outcomeOf (unknown held.started true interrupt)) t) ?_ ?_
  · refine hstatus.quiet ?_ hunknown
    unfold spawned
    split
    · exact ⟨nofun, fun _ => trivial⟩
    · trivial
  intro wasSpawned t ⟨hstatus, hunknown⟩
  refine hostBind_safe (Q := fun _ t => Reported P (outcomeOf status) t ∧
    Reported P (outcomeOf (unknown held.started true interrupt)) t) ?_ ?_
  · refine hstatus.quiet ?_ hunknown
    unfold reapSpawned
    split
    · exact reap_quiet
    · trivial
  intro reaped t ⟨hstatus, hunknown⟩
  have hreport : Reported P (outcomeOf (if (quarantined || reaped) = true then unknown held.started true interrupt else status)) t := by
    split
    · exact hunknown
    · exact hstatus
  simp only []
  split
  · refine Prog.safe_cmd_alone fun x r t' hm => ⟨trivial, ?_⟩
    have hreport' := hreport.step hm nofun
    have hunknown' := hunknown.step hm nofun
    cases hl : held.length with
    | true => exact hostRet_safe hreport'
    | false =>
      refine hostRet_safe ⟨nofun, nofun, nofun, fun _ _ => ?_⟩
      rw [hlength hl] at hunknown'
      cases interrupt with
      | none => exact hunknown'.unavailable rfl
      | some keyboard => exact hunknown'.other (some keyboard) rfl
  · exact hostRet_safe hreport

/-- What follows an exception. -/
theorem failed_safe {quarantined : Bool} {held : Held} {interrupt : Option Bool}
    (hstarted : held.started = false → h.Settled ∧ h.shared.submitted = false)
    (hlength : held.length = false → held.started = false) :
    HostSafe (fun result t => Reported P result.1 t) (failed true quarantined held interrupt) h := by
  unfold failed
  refine finish_safe ?_ hstarted hlength
  unfold unknown
  cases hs : held.started with
  | true => exact reported_ambiguous P h
  | false =>
    obtain ⟨hsettled, hsubmitted⟩ := hstarted hs
    exact reported_unsubmitted P _ hsettled hsubmitted

/-- A message that is read and understood: its status is true of the write. -/
theorem statusOf_reported {self : CredentialBinding} {payload message : Doc} {status : Status}
    (hs : statusOf self payload true message = some status) (hm : Meant message h.shared) (hsettled : h.Settled) :
    Reported (fun record => (∃ r : RefreshSecretRecord, record = encodeRecord r) ∧ record.sortKeys = payload.sortKeys)
      (outcomeOf status) h := by
  unfold statusOf at hs
  split at hs
  · rename_i fields
    split at hs
    · rename_i hget
      split at hs
      · split at hs
        · rename_i result hresult
          split at hs
          · cases hs
          · rename_i hsame
            rw [← Option.some.inj hs]
            simp only [true_and, not_not] at hsame
            obtain ⟨r, hr, -⟩ := SecretBackend.strictRecord_ok hresult
            refine ⟨fun record hrecord => ?_, by rintro ⟨⟩, by rintro ⟨⟩, by rintro _ ⟨⟩⟩
            rw [← Except.ok.inj hrecord]
            exact ⟨hsettled, hm.ok hget, ⟨r, hr⟩, hsame⟩
        · cases hs
      · cases hs
    · rename_i candidate _ hget
      split at hs
      · split at hs
        · rename_i hcandidate
          rw [← Option.some.inj hs]
          have hun : candidate = "unavailable" := by simpa using hcandidate
          exact ⟨by rintro _ ⟨⟩, by rintro ⟨⟩, fun _ => ⟨hsettled, hm.unavailable (by rw [← hun]; exact hget)⟩, by rintro _ ⟨⟩⟩
        · split at hs
          · rename_i hcandidate
            rw [← Option.some.inj hs]
            exact ⟨by rintro _ ⟨⟩, fun _ => ⟨hsettled, hm.conflict (by rw [← hcandidate]; exact hget)⟩, by rintro ⟨⟩, by rintro _ ⟨⟩⟩
          · rw [← Option.some.inj hs]
            exact reported_ambiguous _ h
      · cases hs
    · cases hs
  · cases hs

/-! ## The operation of the parent -/

/-- The request of a write is for the payload. -/
theorem requestOf_ok {self : CredentialBinding} {key : String} {expected : Option Int} {replacement : Doc}
    {quarantined : Bool} {request : SecretRequest} (hr : requestOf self key expected replacement true quarantined = .ok request) :
    request.write = true ∧ PostgresSecretBackend.payloadOf self key expected replacement true = .ok request.replacement := by
  unfold requestOf at hr
  obtain ⟨-, hr⟩ := raiseIf_bind_ok.1 hr
  obtain ⟨payload, hpayload, hr⟩ := bind_ok.1 hr
  obtain ⟨-, hr⟩ := raiseIf_bind_ok.1 hr
  injection hr with hr
  subst hr
  exact ⟨rfl, hpayload⟩

theorem messageIn_some {length : Nat} {buffer : Option Doc} {message : Doc} (hm : messageIn length buffer = some message) :
    length ≠ 0 ∧ buffer = some message := by
  unfold messageIn at hm
  split at hm
  · rename_i hlength
    split at hm
    · split at hm
      · exact ⟨by omega, by rw [← Option.some.inj hm]⟩
      · cases hm
    · cases hm
  · cases hm

/-- What is known of a record that is returned: it is the payload of the write. -/
def IsPayload (self : CredentialBinding) (key : String) (expected : Option Int) (replacement record : Doc) : Prop :=
  ∃ payload, PostgresSecretBackend.payloadOf self key expected replacement true = .ok payload ∧
    (∃ r : RefreshSecretRecord, record = encodeRecord r) ∧ record.sortKeys = payload.sortKeys

/-- A call that leaves the memory alone changes nothing where nothing changes by itself. -/
theorem call_settled {c : ParentCmd} {x : ParentChoice} {r : c.Reply} (hm : hostMachine h c x = some (r, h'))
    (hc : ∀ binding request, c ≠ .start binding request) (he : c ≠ .erase) (hs : h.Settled) : h' = h := by
  have hadvance := hs.advance x.advance
  cases c with
  | start binding request => exact absurd rfl (hc binding request)
  | erase => exact absurd rfl he
  | _ =>
    cases hm
    exact hadvance

/-- A call that may raise, and what follows it. -/
theorem callThen_safe {α : Type} {quarantined : Bool} {held : Held}
    {next : α → ParentProg (Except BackendError Doc × Bool)} {r : Except CallError α}
    (hstarted : held.started = false → h.Settled ∧ h.shared.submitted = false)
    (hlength : held.length = false → held.started = false)
    (hnext : ∀ v, r = .ok v → HostSafe (fun result t => Reported P result.1 t) (next v) h) :
    HostSafe (fun result t => Reported P result.1 t) (callThen true quarantined held next r) h := by
  cases r with
  | error e => exact failed_safe hstarted hlength
  | ok v => exact hnext v rfl

/-- A call of the parent that leaves the memory alone keeps the invariant. -/
theorem HostInv.call {c : ParentCmd} {x : ParentChoice} {r : c.Reply} (hi : HostInv h)
    (hm : hostMachine h c x = some (r, h')) (hc : ∀ binding request, c ≠ .start binding request) (he : c ≠ .erase) :
    HostInv h' := by
  have hadvance := hi.advance x.advance
  cases c with
  | start binding request => exact absurd rfl (hc binding request)
  | erase => exact absurd rfl he
  | _ =>
    cases hm
    exact hadvance

/-- The operation of the parent reports what is true of the write. -/
theorem operation_safe {self : CredentialBinding} {quarantined : Bool} {key : String} {expected : Option Int} {replacement : Doc} :
    HostSafe (fun result t => Reported (IsPayload self key expected replacement) result.1 t)
      (operate self quarantined key expected replacement true) {} := by
  have hsettled : ({} : HostWorld).Settled := .inl rfl
  have hfailed : ∀ (held : Held), held.started = false →
      (held.started = false → ({} : HostWorld).Settled ∧ ({} : HostWorld).shared.submitted = false) ∧
        (held.length = false → held.started = false) := fun held hs => ⟨fun _ => ⟨hsettled, rfl⟩, fun _ => hs⟩
  unfold operate
  refine Prog.safe_cmd_alone fun x r h hm => ⟨trivial, ?_⟩
  rw [call_settled hm nofun nofun hsettled]
  refine callThen_safe (hfailed _ rfl).1 (hfailed _ rfl).2 fun _ _ => ?_
  split
  · exact failed_safe (hfailed _ rfl).1 (hfailed _ rfl).2
  rename_i request hrequest
  obtain ⟨hwrite, hpayload⟩ := requestOf_ok hrequest
  refine Prog.safe_cmd_alone fun x r h hm => ⟨trivial, ?_⟩
  rw [call_settled hm nofun nofun hsettled]
  refine callThen_safe (hfailed _ rfl).1 (hfailed _ rfl).2 fun _ _ => ?_
  refine Prog.safe_cmd_alone fun x r h hm => ⟨trivial, ?_⟩
  rw [call_settled hm nofun nofun hsettled]
  refine callThen_safe (hfailed _ rfl).1 (hfailed _ rfl).2 fun _ _ => ?_
  refine Prog.safe_cmd_alone fun x r h hm => ⟨trivial, ?_⟩
  rw [call_settled hm nofun nofun hsettled]
  refine callThen_safe (hfailed _ rfl).1 (hfailed _ rfl).2 fun _ _ => ?_
  -- from here on the child may have been spawned, and every failure is ambiguous
  refine Prog.safe_cmd_alone fun x r h hm => ⟨trivial, ?_⟩
  have hi : HostInv h := by
    have hstarted := congrArg Prod.snd (Option.some.inj hm)
    simp only [hsettled.advance x.advance] at hstarted
    rw [← hstarted]
    split
    · exact ⟨nofun, nofun, fun p hp _ => Option.some.inj hp ▸ child_safe hwrite rfl rfl⟩
    · exact ⟨fun _ => rfl, nofun, nofun⟩
  refine callThen_safe nofun nofun fun _ _ => ?_
  refine Prog.safe_cmd_alone fun x r joined hm => ⟨trivial, ?_⟩
  have hi := hi.call hm nofun nofun
  refine callThen_safe nofun nofun fun _ _ => ?_
  refine Prog.safe_cmd_alone fun x r h hm => ⟨trivial, ?_⟩
  have hi := hi.call hm nofun nofun
  refine callThen_safe nofun nofun fun clean hclean => ?_
  cases clean with
  | false => exact finish_safe (reported_ambiguous _ h) nofun nofun
  | true =>
    have hsettled : h.Settled := by
      have hworld : joined.advance x.advance = h := congrArg Prod.snd (Option.some.inj hm)
      have hreply := congrArg Prod.fst (Option.some.inj hm)
      simp only [hclean, hworld, ParentChoice.reply] at hreply
      split at hreply
      · nomatch hreply
      · have hzero := Except.ok.inj hreply
        simp only [Bool.and_eq_true, decide_eq_true_eq] at hzero
        exact .inr (by rw [hzero.1]; rfl)
    rw [if_pos rfl]
    refine Prog.safe_cmd_alone fun x length t hm => ⟨trivial, ?_⟩
    have hlength : length = h.shared.length := by
      have := hsettled.advance x.advance
      cases hm
      rw [this]
    rw [call_settled hm nofun nofun hsettled]
    refine Prog.safe_cmd_alone fun x buffer t hm => ⟨trivial, ?_⟩
    have hbuffer : buffer = h.shared.buffer := by
      have := hsettled.advance x.advance
      cases hm
      rw [this]
    rw [call_settled hm nofun nofun hsettled]
    split
    · rename_i status hstatus
      obtain ⟨message, hmessage, hstatus⟩ := Option.bind_eq_some_iff.1 hstatus
      obtain ⟨hne, hfound⟩ := messageIn_some hmessage
      obtain ⟨message', hmessage', -, hmeant⟩ := hi.published (hlength ▸ hne)
      have hsame : message' = message := by
        rw [hbuffer, hmessage'] at hfound
        exact Option.some.inj hfound
      have hreported := statusOf_reported hstatus (hsame ▸ hmeant) hsettled
      refine finish_safe ⟨fun record hr => ?_, hreported.conflict, hreported.unavailable, hreported.other⟩ nofun nofun
      obtain ⟨hs, happlied, hrecord⟩ := hreported.ok record hr
      exact ⟨hs, happlied, request.replacement, hpayload, hrecord⟩
    · exact failed_safe nofun nofun

end SecretProcess

end Keirin
