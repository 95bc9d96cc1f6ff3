import Keirin.RefreshingProvider
import Keirin.Lib.Log

/-!
# The invariant of the refreshing provider

One thread is between the two sections of a call at a time (`ProviderInv`). What it knows of the times is not disturbed by the
others: they may move the monotonic clock on and revoke, and no more.
-/

namespace Keirin

/-! ## The log -/

/-- The time of a snapshot that was returned. -/
def ProviderItem.createdAt : ProviderItem → Option Int
  | returned _ s => some s.createdAt
  | _ => none

/-- Whether nothing is issued after the entry. -/
def ProviderItem.ends : ProviderItem → Bool
  | returned _ _ => false
  | failed => true
  | revoked => true

/-- What a snapshot is of and for how long, as its call asked for. -/
structure SnapshotOk (binding : CredentialBinding) (minimum : Int) (s : CredentialSnapshot) : Prop where
  providerId : s.providerId = binding.providerId
  accountLabel : s.accountLabel = some binding.accountId
  capabilities : s.capabilities = binding.capabilities
  issued : s.issuedAt ≤ s.createdAt
  positive : 0 < s.expiresAt - s.createdAt
  lifetime : minimum ≤ s.expiresAt - s.createdAt

/-- The times of the snapshots returned. -/
def created (log : List ProviderItem) : List Int := log.filterMap ProviderItem.createdAt

/-- A snapshot is returned in order: it is no older than those before it, and nothing failed or was revoked before. -/
def ProviderItemOk (binding : CredentialBinding) (pre : List ProviderItem) : ProviderItem → Prop
  | .returned minimum s => SnapshotOk binding minimum s ∧ (∀ c ∈ created pre, c ≤ s.createdAt) ∧ ∀ item ∈ pre, item.ends = false
  | _ => True

section Provider

variable {T M : Type} [LinearOrder M] [DecidableEq T]

structure ProviderInv (sw : Stopwatch M) (binding : CredentialBinding) (w : ProviderWorld T M) : Prop where
  flying : w.inFlight.length ≤ 1
  busy : w.provider.busy = false → w.inFlight = []
  source : w.inSource.length ≤ 1
  inFlight : ∀ u ∈ w.inSource, u ∈ w.inFlight
  ended : ∀ item ∈ w.log, item.ends = true → w.provider.state = .revoked ∨ w.provider.state = .blockedAuth
  blocked : w.provider.state = .blockedAuth → w.inFlight = []
  cleared : w.provider.state = .revoked ∨ w.provider.state = .blockedAuth → w.provider.grant = none
  times : ∀ c ∈ created w.log, ∃ a, w.provider.timeAnchor = some a ∧ c ≤ a.1 + sw.seconds w.mono a.2
  items : Log.Holds (ProviderItemOk binding) w.log

/-- What a command of thread `t` does to the others. -/
structure ProviderGuar (t : T) (a b : ProviderWorld T M) : Prop where
  mono : a.mono ≤ b.mono
  log : a.log <+: b.log
  inFlight : ∀ u, u ≠ t → u ∈ a.inFlight → u ∈ b.inFlight
  inSource : ∀ u, u ≠ t → u ∈ a.inFlight → (u ∈ b.inSource ↔ u ∈ a.inSource)
  created : ∀ u, u ≠ t → u ∈ a.inFlight → created b.log = created a.log

def providerContract (T : Type) [DecidableEq T] (sw : Stopwatch M) (binding : CredentialBinding) : Contract T (ProviderWorld T M) :=
  { inv := ProviderInv sw binding, guar := ProviderGuar }

theorem ProviderGuar.refl (t : T) (w : ProviderWorld T M) : ProviderGuar t w w :=
  ⟨le_rfl, List.prefix_rfl, fun _ _ h => h, fun _ _ _ => Iff.rfl, fun _ _ _ => rfl⟩

variable {sw : Stopwatch M} {binding : CredentialBinding} {t : T} {w w' : ProviderWorld T M}

/-! ## Stable knowledge -/

/-- What the other threads cannot change. -/
def ProviderStable (t : T) (J : ProviderWorld T M → Prop) : Prop :=
  ∀ a b u, u ≠ t → ProviderGuar u a b → J a → J b

/-- The thread is between the two sections of its call, and not in the source. -/
def Flying (t : T) (w : ProviderWorld T M) : Prop := t ∈ w.inFlight ∧ t ∉ w.inSource

/-- The anchor is not before a snapshot that was returned. -/
def Anchored (sw : Stopwatch M) (anchor : TimeAnchor M) (w : ProviderWorld T M) : Prop :=
  ∀ c ∈ created w.log, c ≤ anchor.1 + sw.seconds w.mono anchor.2

/-- The time is not before a snapshot that was returned, and the anchor is not before the time. -/
def Timed (sw : Stopwatch M) (now : Int) (anchor : TimeAnchor M) (w : ProviderWorld T M) : Prop :=
  (∀ c ∈ created w.log, c ≤ now) ∧ now ≤ anchor.1 + sw.seconds w.mono anchor.2

theorem Flying.stable : ProviderStable t (Flying t : ProviderWorld T M → Prop) := by
  intro a b u hu hg h
  exact ⟨hg.inFlight t hu.symm h.1, fun hin => h.2 ((hg.inSource t hu.symm h.1).1 hin)⟩

theorem seconds_le (sw : Stopwatch M) (anchor : TimeAnchor M) {m m' : M} (h : m ≤ m') :
    anchor.1 + (sw.seconds m anchor.2 : Int) ≤ anchor.1 + sw.seconds m' anchor.2 := by
  have := sw.mono anchor.2 h
  simp only at this
  omega

theorem Anchored.stable (anchor : TimeAnchor M) :
    ProviderStable t (fun w : ProviderWorld T M => Flying t w ∧ Anchored sw anchor w) := by
  intro a b u hu hg h
  refine ⟨Flying.stable a b u hu hg h.1, fun c hc => ?_⟩
  rw [hg.created t hu.symm h.1.1] at hc
  exact (h.2 c hc).trans (seconds_le sw anchor hg.mono)

/-- The same while the thread may be in the source. -/
theorem Timed.stable_inFlight (now : Int) (anchor : TimeAnchor M) :
    ProviderStable t (fun w : ProviderWorld T M => t ∈ w.inFlight ∧ Timed sw now anchor w) := by
  intro a b u hu hg h
  refine ⟨hg.inFlight t hu.symm h.1, fun c hc => ?_, h.2.2.trans (seconds_le sw anchor hg.mono)⟩
  rw [hg.created t hu.symm h.1] at hc
  exact h.2.1 c hc

theorem Timed.stable (now : Int) (anchor : TimeAnchor M) :
    ProviderStable t (fun w : ProviderWorld T M => Flying t w ∧ Timed sw now anchor w) := by
  intro a b u hu hg h
  refine ⟨Flying.stable a b u hu hg h.1, fun c hc => ?_, h.2.2.trans (seconds_le sw anchor hg.mono)⟩
  rw [hg.created t hu.symm h.1.1] at hc
  exact h.2.1 c hc

/-- The anchor is not before a snapshot that was returned, and not before the time `low`. -/
def Counted (sw : Stopwatch M) (low : Int) (anchor : TimeAnchor M) (w : ProviderWorld T M) : Prop :=
  Anchored sw anchor w ∧ low ≤ anchor.1 + sw.seconds w.mono anchor.2

theorem Counted.stable (low : Int) (anchor : TimeAnchor M) :
    ProviderStable t (fun w : ProviderWorld T M => Flying t w ∧ Counted sw low anchor w) := by
  intro a b u hu hg h
  obtain ⟨ht, ha⟩ := Anchored.stable anchor a b u hu hg ⟨h.1, h.2.1⟩
  exact ⟨ht, ha, h.2.2.trans (seconds_le sw anchor hg.mono)⟩

theorem Timed.counted {now : Int} {anchor : TimeAnchor M} (h : Timed sw now anchor w) : Counted sw now anchor w :=
  ⟨fun c hc => (h.1 c hc).trans h.2, h.2⟩

/-- Where one thread is in flight, no other is. -/
theorem ProviderInv.inFlight_eq (hi : ProviderInv sw binding w) (ht : t ∈ w.inFlight) : w.inFlight = [t] := by
  cases hl : w.inFlight with
  | nil =>
    rw [hl] at ht
    nomatch ht
  | cons u us =>
    have hlen := hi.flying
    rw [hl, List.length_cons] at hlen
    obtain rfl := List.length_eq_zero_iff.1 (show us.length = 0 by omega)
    rw [hl, List.mem_singleton] at ht
    rw [ht]

theorem ProviderInv.inSource_nil (hi : ProviderInv sw binding w) (ht : Flying t w) : w.inSource = [] := by
  refine List.eq_nil_iff_forall_not_mem.2 fun u hu => ?_
  have hfly := hi.inFlight u hu
  rw [hi.inFlight_eq ht.1, List.mem_singleton] at hfly
  exact ht.2 (hfly ▸ hu)

/-! ## Commands -/

section Commands

theorem ProviderInv.acquire (hi : ProviderInv sw binding w) (hok : w.provider.assertIssuanceAllowed = .ok ()) :
    ProviderInv sw binding { w with provider := { w.provider with busy := true }, inFlight := t :: w.inFlight } ∧
      ProviderGuar t w { w with provider := { w.provider with busy := true }, inFlight := t :: w.inFlight } ∧
      Flying t { w with provider := { w.provider with busy := true }, inFlight := t :: w.inFlight } := by
  unfold Provider.assertIssuanceAllowed at hok
  split_ifs at hok with hrevoked hauth hbusy
  have hnone : w.inFlight = [] := hi.busy (Bool.eq_false_iff.2 hbusy)
  have hsource : ∀ u, u ∉ w.inSource := by
    intro u hu
    have := hi.inFlight u hu
    rw [hnone] at this
    nomatch this
  refine ⟨⟨?_, fun h => (nomatch h), hi.source, fun u hu => absurd hu (hsource u), hi.ended, ?_, hi.cleared, hi.times, hi.items⟩,
    ⟨le_rfl, List.prefix_rfl, fun u _ hu => List.mem_cons_of_mem _ hu, fun _ _ _ => Iff.rfl, fun _ _ _ => rfl⟩,
    List.mem_cons_self, hsource t⟩
  · simp [hnone]
  · exact fun hb => absurd (.inr hb) hauth

theorem ProviderInv.monotonic (hi : ProviderInv sw binding w) {m : M} (hm : w.mono ≤ m) :
    ProviderInv sw binding { w with mono := m } ∧ ProviderGuar t w { w with mono := m } := by
  refine ⟨{ hi with times := fun c hc => ?_ }, ⟨hm, List.prefix_rfl, fun _ _ h => h, fun _ _ _ => Iff.rfl, fun _ _ _ => rfl⟩⟩
  obtain ⟨a, ha, hca⟩ := hi.times c hc
  exact ⟨a, ha, hca.trans (seconds_le sw a hm)⟩

/-- While a thread is in flight and the provider is not revoked, nothing has ended. -/
theorem ProviderInv.not_ended (hi : ProviderInv sw binding w) (ht : t ∈ w.inFlight) (hstate : w.provider.state ≠ .revoked) :
    w.provider.state ≠ .blockedAuth ∧ ∀ item ∈ w.log, item.ends = false := by
  have hblocked : w.provider.state ≠ .blockedAuth := by
    intro hb
    rw [hi.blocked hb] at ht
    nomatch ht
  refine ⟨hblocked, fun item hitem => Bool.eq_false_iff.2 fun hends => ?_⟩
  rcases hi.ended item hitem hends with h | h
  · exact hstate h
  · exact hblocked h

theorem ProviderInv.beginRefresh (hi : ProviderInv sw binding w) (ht : Flying t w) (hstate : w.provider.state ≠ .revoked) :
    ProviderInv sw binding { w with provider := { w.provider with state := .refreshing, grant := none } } ∧
      ProviderGuar t w { w with provider := { w.provider with state := .refreshing, grant := none } } := by
  obtain ⟨-, hnone⟩ := hi.not_ended ht.1 hstate
  refine ⟨{ hi with ended := fun item hitem hends => ?_, blocked := fun h => (nomatch h), cleared := fun _ => rfl },
    ⟨le_rfl, List.prefix_rfl, fun _ _ h => h, fun _ _ _ => Iff.rfl, fun _ _ _ => rfl⟩⟩
  rw [hnone item hitem] at hends
  nomatch hends

theorem ProviderInv.callSource (hi : ProviderInv sw binding w) (ht : Flying t w) :
    ProviderInv sw binding { w with inSource := t :: w.inSource } ∧
      ProviderGuar t w { w with inSource := t :: w.inSource } := by
  have hnil := hi.inSource_nil ht
  refine ⟨{ hi with source := ?_, inFlight := fun u hu => ?_ },
    ⟨le_rfl, List.prefix_rfl, fun _ _ h => h, fun u hu _ => ?_, fun _ _ _ => rfl⟩⟩
  · simp [hnil]
  · rcases List.mem_cons.1 hu with rfl | hu
    · exact ht.1
    · exact hi.inFlight u hu
  · rw [List.mem_cons, or_iff_right hu]

theorem ProviderInv.sourceReply (hi : ProviderInv sw binding w) (ht : t ∈ w.inFlight) :
    ProviderInv sw binding { w with inSource := w.inSource.erase t } ∧
      ProviderGuar t w { w with inSource := w.inSource.erase t } ∧ Flying t { w with inSource := w.inSource.erase t } := by
  have hnil : w.inSource.erase t = [] := by
    refine List.eq_nil_iff_length_eq_zero.2 ?_
    cases hs : w.inSource with
    | nil => rfl
    | cons u us =>
      have hu := hi.inFlight u (hs ▸ List.mem_cons_self)
      rw [hi.inFlight_eq ht, List.mem_singleton] at hu
      have hlen := hi.source
      rw [hs, List.length_cons] at hlen
      rw [hu, List.erase_cons_head]
      omega
  refine ⟨{ hi with source := ?_, inFlight := fun u hu => hi.inFlight u (List.mem_of_mem_erase hu) },
    ⟨le_rfl, List.prefix_rfl, fun _ _ h => h, fun u hu _ => List.mem_erase_of_ne hu, fun _ _ _ => rfl⟩, ht, ?_⟩
  · simp [hnil]
  · simp [hnil]

theorem ProviderInv.revoke (hi : ProviderInv sw binding w) :
    ProviderInv sw binding
        { w with provider := { w.provider with state := .revoked, grant := none }, log := w.log ++ [.revoked] } ∧
      ProviderGuar t w
        { w with provider := { w.provider with state := .revoked, grant := none }, log := w.log ++ [.revoked] } := by
  have hcreated : created (w.log ++ [.revoked]) = created w.log := by simp [created, ProviderItem.createdAt]
  refine ⟨{ hi with
      ended := fun _ _ _ => .inl rfl
      blocked := fun h => (nomatch h)
      cleared := fun _ => rfl
      times := fun c hc => hi.times c (hcreated ▸ hc)
      items := hi.items.append trivial },
    ⟨le_rfl, List.prefix_append _ _, fun _ _ h => h, fun _ _ _ => Iff.rfl, fun _ _ _ => hcreated⟩⟩

/-! ## The end of a call -/

/-- What was found out is in order: the grant lasts as long as the call asked for. -/
structure IssueOk (minimum : Int) (issue : Issue M) : Prop where
  issued : issue.grant.issuedAt ≤ issue.now
  positive : issue.now < issue.grant.expiresAt
  lifetime : minimum ≤ issue.grant.expiresAt - issue.now

omit [LinearOrder M] in
theorem issueOk_of_validateGrant {grant : Option AccessCredentialGrant} {now minimum : Int} {held : HeldGrant}
    (h : validateGrant binding grant now minimum = .ok held) (anchor : TimeAnchor M) (refreshed : Bool) :
    IssueOk minimum { grant := held, now := now, anchor := anchor, refreshed := refreshed } := by
  unfold validateGrant at h
  cases grant with
  | none => nomatch h
  | some g =>
    simp only at h
    obtain ⟨-, h⟩ := raiseIf_bind_ok.1 h
    obtain ⟨_, -, h⟩ := bind_ok.1 h
    obtain ⟨-, h⟩ := raiseIf_bind_ok.1 h
    cases htoken : g.accessToken with
    | str token =>
      rw [htoken] at h
      obtain ⟨-, h⟩ := raiseIf_bind_ok.1 h
      obtain ⟨issuedAt, -, h⟩ := bind_ok.1 h
      obtain ⟨expiresAt, -, h⟩ := bind_ok.1 h
      obtain ⟨-, -, h⟩ := bind_ok.1 h
      obtain ⟨hlife, h⟩ := raiseIf_bind_ok.1 h
      cases h
      simp only [not_or, not_lt, not_le] at hlife
      exact ⟨hlife.1, hlife.2.1, hlife.2.2⟩
    | _ =>
      rw [htoken] at h
      nomatch h

/-- The snapshot of an issue is of the binding. -/
theorem snapshotOk_of_ofFields {token : String} {issuedAt expiresAt createdAt minimum : Int} {s : CredentialSnapshot}
    (h : CredentialSnapshot.ofFields binding.providerId binding.accountId binding.capabilities token issuedAt expiresAt createdAt =
      .ok s)
    (hissued : issuedAt ≤ createdAt) (hpositive : createdAt < expiresAt) (hlifetime : minimum ≤ expiresAt - createdAt) :
    SnapshotOk binding minimum s ∧ s.createdAt = createdAt := by
  have hprovider := raiseIf_ok.1 binding.provider
  have haccount := raiseIf_ok.1 binding.account
  simp only [not_or, not_not] at hprovider haccount
  unfold CredentialSnapshot.ofFields at h
  obtain ⟨-, h⟩ := raiseIf_bind_ok.1 h
  obtain ⟨normalized, hcaps, h⟩ := bind_ok.1 h
  obtain ⟨-, h⟩ := raiseIf_bind_ok.1 h
  obtain ⟨-, -, h⟩ := bind_ok.1 h
  obtain ⟨-, -, h⟩ := bind_ok.1 h
  cases h
  rw [binding.canonical] at hcaps
  refine ⟨⟨hprovider.2.symm, ?_, (Except.ok.inj hcaps).symm, hissued, ?_, hlifetime⟩, rfl⟩
  · simp only [if_neg haccount.1, ← haccount.2]
  · simp only
    omega

/-- A thread leaves, with the provider and the entries it leaves behind in order. -/
theorem ProviderInv.leave (hi : ProviderInv sw binding w) (ht : Flying t w) {p : Provider M} {e : List ProviderItem}
    (hended : ∀ item ∈ w.log ++ e, item.ends = true → p.state = .revoked ∨ p.state = .blockedAuth)
    (hcleared : p.state = .revoked ∨ p.state = .blockedAuth → p.grant = none)
    (htimes : ∀ c ∈ created (w.log ++ e), ∃ a, p.timeAnchor = some a ∧ c ≤ a.1 + sw.seconds w.mono a.2)
    (hitems : Log.Holds (ProviderItemOk binding) (w.log ++ e)) :
    ProviderInv sw binding { w with provider := p, inFlight := w.inFlight.erase t, log := w.log ++ e } ∧
      ProviderGuar t w { w with provider := p, inFlight := w.inFlight.erase t, log := w.log ++ e } := by
  have heq := hi.inFlight_eq ht.1
  have hnil : w.inFlight.erase t = [] := by simp [heq]
  have hsource := hi.inSource_nil ht
  have halone : ∀ u, u ≠ t → u ∉ w.inFlight := by
    intro u hu
    simpa [heq] using hu
  refine ⟨⟨by simp [hnil], fun _ => hnil, hi.source, fun u hu => ?_, hended, fun _ => hnil, hcleared, htimes, hitems⟩,
    ⟨le_rfl, List.prefix_append _ _, fun u hu hin => absurd hin (halone u hu), fun u hu hin => absurd hin (halone u hu),
      fun u hu hin => absurd hin (halone u hu)⟩⟩
  rw [show w.inSource = [] from hsource] at hu
  nomatch hu

theorem created_append (log : List ProviderItem) {item : ProviderItem} (h : item.createdAt = none) :
    created (log ++ [item]) = created log := by
  simp [created, h]

/-- A call that failed. -/
theorem ProviderInv.fail (hi : ProviderInv sw binding w) (ht : Flying t w) {p : Provider M}
    (hstate : p.state = .revoked ∨ p.state = .blockedAuth) (hgrant : p.grant = none) (hanchor : p.timeAnchor = w.provider.timeAnchor) :
    ProviderInv sw binding { w with provider := p, inFlight := w.inFlight.erase t, log := w.log ++ [.failed] } ∧
      ProviderGuar t w { w with provider := p, inFlight := w.inFlight.erase t, log := w.log ++ [.failed] } := by
  refine hi.leave ht (fun _ _ _ => hstate) (fun _ => hgrant) (fun c hc => ?_) (hi.items.append trivial)
  rw [created_append w.log rfl] at hc
  rw [hanchor]
  exact hi.times c hc

/-- A call that found out something leaves the anchor not before its time. -/
theorem ProviderInv.succeed (hi : ProviderInv sw binding w) (ht : Flying t w) (hstate : w.provider.state ≠ .revoked)
    {minimum : Int} {issue : Issue M} (hok : IssueOk minimum issue) (htimed : Timed sw issue.now issue.anchor w) {p : Provider M}
    (hp : p.state ≠ .revoked ∧ p.state ≠ .blockedAuth) (hanchor : p.timeAnchor = some issue.anchor)
    {entries : List ProviderItem} (hentries : entries = ProviderItem.ofCall minimum (.ok issue) (w.provider.answer binding (.ok issue))) :
    ProviderInv sw binding { w with provider := p, inFlight := w.inFlight.erase t, log := w.log ++ entries } ∧
      ProviderGuar t w { w with provider := p, inFlight := w.inFlight.erase t, log := w.log ++ entries } := by
  obtain ⟨-, hnone⟩ := hi.not_ended ht.1 hstate
  have hcleared : p.state = .revoked ∨ p.state = .blockedAuth → p.grant = none := by
    rintro (h | h)
    · exact absurd h hp.1
    · exact absurd h hp.2
  have hold : ∀ c ∈ created w.log, ∃ a, p.timeAnchor = some a ∧ c ≤ a.1 + sw.seconds w.mono a.2 :=
    fun c hc => ⟨issue.anchor, hanchor, (htimed.1 c hc).trans htimed.2⟩
  unfold Provider.answer at hentries
  rw [if_neg hstate] at hentries
  simp only at hentries
  cases hs : CredentialSnapshot.ofFields binding.providerId binding.accountId binding.capabilities issue.grant.accessToken
      issue.grant.issuedAt issue.grant.expiresAt issue.now with
  | error e =>
    rw [hs] at hentries
    subst hentries
    have hnothing : w.log ++ ProviderItem.ofCall minimum (.ok issue) (Except.mapError ProviderError.secret (.error e)) = w.log :=
      List.append_nil _
    rw [hnothing]
    have h := hi.leave ht (p := p) (e := []) (by
      intro item hitem hends
      rw [List.append_nil] at hitem
      rw [hnone item hitem] at hends
      nomatch hends) hcleared (by rwa [List.append_nil]) (by rw [List.append_nil]; exact hi.items)
    rwa [List.append_nil] at h
  | ok s =>
    rw [hs] at hentries
    subst hentries
    obtain ⟨hsnapshot, hcreated⟩ := snapshotOk_of_ofFields hs hok.issued hok.positive hok.lifetime
    refine hi.leave ht (fun item hitem hends => ?_) hcleared (fun c hc => ?_)
      (hi.items.append ⟨hsnapshot, fun c hc => hcreated ▸ htimed.1 c hc, hnone⟩)
    · rcases List.mem_append.1 hitem with hin | hin
      · rw [hnone item hin] at hends
        nomatch hends
      · rw [List.mem_singleton.1 hin] at hends
        nomatch hends
    · rw [created, List.filterMap_append] at hc
      rcases List.mem_append.1 hc with hc | hc
      · exact hold c hc
      · obtain rfl : c = s.createdAt := by simpa [ProviderItem.createdAt, ProviderItem.ofCall, Except.mapError] using hc
        exact ⟨issue.anchor, hanchor, hcreated ▸ htimed.2⟩

/-- The call is over: the thread has left, and what it returned is in order. -/
theorem ProviderInv.release (hi : ProviderInv sw binding w) (ht : Flying t w) (minimum : Int)
    {outcome : Except IoFailure (Issue M)}
    (hok : ∀ issue, outcome = .ok issue → IssueOk minimum issue ∧ Timed sw issue.now issue.anchor w) :
    ProviderInv sw binding { w with
        provider := w.provider.settled outcome
        inFlight := w.inFlight.erase t
        log := w.log ++ ProviderItem.ofCall minimum outcome (w.provider.answer binding outcome) } ∧
      ProviderGuar t w { w with
        provider := w.provider.settled outcome
        inFlight := w.inFlight.erase t
        log := w.log ++ ProviderItem.ofCall minimum outcome (w.provider.answer binding outcome) } := by
  by_cases hstate : w.provider.state = .revoked
  · have hgrant : (w.provider.settled outcome).grant = none := by simp [Provider.settled, hstate]
    have hrevoked : (w.provider.settled outcome).state = .revoked := by simp [Provider.settled, hstate]
    have hanchor : (w.provider.settled outcome).timeAnchor = w.provider.timeAnchor := by simp [Provider.settled, hstate]
    cases outcome with
    | error e => simpa [Provider.answer, hstate, ProviderItem.ofCall] using hi.fail ht (.inl hrevoked) hgrant hanchor
    | ok issue =>
      refine hi.leave ht (fun _ _ _ => .inl hrevoked) (fun _ => hgrant) ?_ ?_
      · rw [hanchor]
        simpa [Provider.answer, hstate, ProviderItem.ofCall] using hi.times
      · simpa [Provider.answer, hstate, ProviderItem.ofCall] using hi.items
  · cases outcome with
    | error e =>
      cases e with
      | revoked =>
        have h := hi.fail ht (p := w.provider.settled (.error .revoked)) (by simp [Provider.settled, hstate])
          (by simp [Provider.settled, hstate]) (by simp [Provider.settled, hstate])
        simpa [Provider.answer, hstate, ProviderItem.ofCall] using h
      | failed i =>
        have h := hi.fail ht (p := w.provider.settled (.error (.failed i))) (by simp [Provider.settled, hstate])
          (by simp [Provider.settled, hstate]) (by simp [Provider.settled, hstate])
        cases i <;> simpa [Provider.answer, hstate, ProviderItem.ofCall] using h
    | ok issue =>
      obtain ⟨hissue, htimed⟩ := hok issue rfl
      refine hi.succeed ht hstate hissue htimed ?_ ?_ rfl
      · simp only [Provider.settled, if_neg hstate]
        split_ifs <;> simp
      · simp only [Provider.settled, if_neg hstate]

end Commands

/-! ## A call -/

section Call

/-- The setting of a thread. -/
abbrev providerSetting (sw : Stopwatch M) (binding : CredentialBinding) (t : T) :
    Setting (ProviderWorld T M) (ProviderCmd M) ProviderCmd.Reply (ProviderChoice M) :=
  (providers T sw binding).setting (providerContract T sw binding) t

/-- The part of a call outside the lock is safe; where it found `a`, `Q a` holds. -/
def IoSafe (sw : Stopwatch M) (binding : CredentialBinding) (t : T) {α : Type} (Q : α → ProviderWorld T M → Prop) (p : IoProg M α)
    (w : ProviderWorld T M) : Prop :=
  Prog.Safe (providerSetting sw binding t) (fun r w => Flying t w ∧ ∀ a, r = .ok a → Q a w) (fun _ _ => True) p w

theorem ProviderStable.others {J : ProviderWorld T M → Prop} (hJ : ProviderStable t J)
    (h : (providerContract T sw binding).others t w w') (hw : J w) : J w' :=
  Contract.others_keep (fun a b u hu _ _ hg => hJ a b u hu hg) h hw

variable {α β : Type} {Q : α → ProviderWorld T M → Prop}

theorem io_ret {a : α} (hQ : ProviderStable t fun w => Flying t w ∧ Q a w) (ht : Flying t w) (h : Q a w) :
    IoSafe sw binding t Q (.ret (.ok a)) w := by
  intro w' he _
  obtain ⟨ht', hq⟩ := hQ.others he ⟨ht, h⟩
  refine ⟨ht', fun b hb => ?_⟩
  cases hb
  exact hq

theorem io_fail {e : IoFailure} (ht : Flying t w) : IoSafe sw binding t Q (.ret (.error e)) w :=
  fun _ he _ => ⟨Flying.stable.others he ht, fun _ hb => nomatch hb⟩

theorem io_except {ε : Type} {x : Except ε α} (hQ : ∀ a, x = .ok a → (ProviderStable t fun w => Flying t w ∧ Q a w) ∧ Q a w)
    (ht : Flying t w) : IoSafe sw binding t Q (RefreshingCredentialProvider.orFail x) w := by
  cases x with
  | ok a => exact io_ret (hQ a rfl).1 ht (hQ a rfl).2
  | error e => exact io_fail ht

/-- A command, of which `J` is known before. -/
theorem io_cmd {J : ProviderWorld T M → Prop} (hJ : ProviderStable t J) {c : ProviderCmd M} {k : c.Reply → IoProg M α} (hw : J w)
    (h : ∀ w x r w', J w → ProviderInv sw binding w → ProviderWorld.machine binding t w c x = some (r, w') →
      ProviderInv sw binding w' ∧ ProviderGuar t w w' ∧ IoSafe sw binding t Q (k r) w') :
    IoSafe sw binding t Q (.cmd c k) w :=
  fun w' he hi x r w'' hm => h w' x r w'' (hJ.others he hw) hi hm

theorem io_andThen {Q' : β → ProviderWorld T M → Prop} {p : IoProg M α} {f : α → IoProg M β} (hi : ProviderInv sw binding w)
    (hp : IoSafe sw binding t Q p w)
    (hf : ∀ a w, ProviderInv sw binding w → Flying t w → Q a w → IoSafe sw binding t Q' (f a) w) :
    IoSafe sw binding t Q' (RefreshingCredentialProvider.andThen p f) w := by
  refine Prog.Safe.bind (fun w => Team.others_refl t w) hi hp fun r w hi hr => ?_
  cases r with
  | ok a => exact hf a w hi hr.1 (hr.2 a rfl)
  | error e => exact io_fail hr.1

/-- The clock is read. -/
theorem io_clock {J : ProviderWorld T M → Prop} (hJ : ProviderStable t fun w => Flying t w ∧ J w) (ht : Flying t w) (hw : J w) :
    IoSafe sw binding t (fun _ w => J w) RefreshingCredentialProvider.clock w := by
  refine io_cmd hJ ⟨ht, hw⟩ fun w x r w' hw hi hm => ?_
  cases x with
  | clock reply =>
    cases hm
    refine ⟨hi, ProviderGuar.refl t w, ?_⟩
    cases r with
    | value v => exact io_except (fun _ _ => ⟨hJ, hw.2⟩) hw.1
    | raised e => exact io_fail hw.1
  | _ => nomatch hm

/-- The source is asked whether it is available. -/
theorem io_available {J : ProviderWorld T M → Prop} (hJ : ProviderStable t fun w => Flying t w ∧ J w) (ht : Flying t w) (hw : J w) :
    IoSafe sw binding t (fun _ w => J w) RefreshingCredentialProvider.assertAvailable w := by
  refine io_cmd hJ ⟨ht, hw⟩ fun w x r w' hw hi hm => ?_
  cases x with
  | available reply =>
    cases hm
    refine ⟨hi, ProviderGuar.refl t w, ?_⟩
    cases r with
    | value isNone =>
      cases isNone with
      | true => exact io_ret hJ hw.1 hw.2
      | false => exact io_fail hw.1
    | raised e => exact io_fail hw.1
  | _ => nomatch hm

/-- The stored anchor is not before a snapshot that was returned. -/
theorem io_timeAnchor (ht : Flying t w) (start : TimeAnchor M) :
    IoSafe sw binding t (fun stored w => Anchored sw (stored.getD start) w) RefreshingCredentialProvider.timeAnchor w := by
  refine io_cmd Flying.stable ht fun w x r w' hw hi hm => ?_
  cases x with
  | ok =>
    cases hm
    refine ⟨hi, ProviderGuar.refl t w, io_ret (Anchored.stable _) hw fun c hc => ?_⟩
    obtain ⟨a, ha, hca⟩ := hi.times c hc
    rw [ha]
    exact hca
  | _ => nomatch hm

/-- A reading of the monotonic clock, counted from an anchor. -/
theorem io_monotonic {anchor : TimeAnchor M} {low : Int} (ht : Flying t w) (hc : Counted sw low anchor w) :
    IoSafe sw binding t
      (fun m w => Timed sw (anchor.1 + sw.seconds m anchor.2) anchor w ∧ low ≤ anchor.1 + sw.seconds m anchor.2)
      RefreshingCredentialProvider.monotonic w := by
  refine io_cmd (Counted.stable low anchor) ⟨ht, hc⟩ fun w x r w' hw hi hm => ?_
  cases x with
  | reading m =>
    simp only [ProviderWorld.machine] at hm
    split_ifs at hm with hle
    cases hm
    obtain ⟨hi', hg⟩ := hi.monotonic (t := t) hle
    refine ⟨hi', hg, io_ret ?_ hw.1 ⟨⟨fun c hc => ?_, le_rfl⟩, ?_⟩⟩
    · intro a b u hu hg h
      obtain ⟨ht, htimed⟩ := Timed.stable _ _ a b u hu hg ⟨h.1, h.2.1⟩
      exact ⟨ht, htimed, h.2.2⟩
    · exact (hw.2.1 c hc).trans (seconds_le sw anchor hle)
    · exact hw.2.2.trans (seconds_le sw anchor hle)
  | _ => nomatch hm

/-- The first reading. -/
theorem io_start (ht : Flying t w) : IoSafe sw binding t (fun _ _ => True) RefreshingCredentialProvider.monotonic w := by
  refine io_cmd Flying.stable ht fun w x r w' hw hi hm => ?_
  cases x with
  | reading m =>
    simp only [ProviderWorld.machine] at hm
    split_ifs at hm with hle
    cases hm
    obtain ⟨hi', hg⟩ := hi.monotonic (t := t) hle
    refine ⟨hi', hg, io_ret ?_ hw trivial⟩
    exact fun a b u hu hg h => ⟨Flying.stable a b u hu hg h.1, trivial⟩
  | _ => nomatch hm

theorem Timed.stable_of (p : Prop) (now : Int) (anchor : TimeAnchor M) :
    ProviderStable t (fun w : ProviderWorld T M => Flying t w ∧ Timed sw now anchor w ∧ p) := by
  intro a b u hu hg h
  obtain ⟨ht, htimed⟩ := Timed.stable now anchor a b u hu hg ⟨h.1, h.2.1⟩
  exact ⟨ht, htimed, h.2.2⟩

variable {nowEpoch : Option Int} {startEpoch : Int} {startMonotonic : M}

/-- The current time is not before what was counted, and the anchor it leaves is not before it. -/
theorem io_currentTime {anchor : TimeAnchor M} {low : Int} (hi : ProviderInv sw binding w) (ht : Flying t w)
    (hc : Counted sw low anchor w) :
    IoSafe sw binding t (fun r w => Timed sw r.1 r.2 w ∧ low ≤ r.1)
      (RefreshingCredentialProvider.currentTime sw nowEpoch startEpoch startMonotonic anchor) w := by
  refine io_andThen hi (io_monotonic ht hc) fun m w hi ht hm => ?_
  have hwall : IoSafe sw binding t
      (fun _ w => Timed sw (anchor.1 + sw.seconds m anchor.2) anchor w ∧ low ≤ anchor.1 + sw.seconds m anchor.2)
      (if nowEpoch = none then RefreshingCredentialProvider.clock
        else .ret (.ok (startEpoch + sw.seconds m startMonotonic))) w := by
    split_ifs
    · exact io_clock (Timed.stable_of _ _ _) ht hm
    · exact io_ret (Timed.stable_of _ _ _) ht hm
  refine io_andThen hi hwall fun wall w hi ht hm => ?_
  obtain ⟨htimed, hlow⟩ := hm
  refine io_ret (Timed.stable_of _ _ _) ht ?_
  split_ifs with hlt
  · refine ⟨⟨fun c hc => (htimed.1 c hc).trans hlt.le, ?_⟩, hlow.trans hlt.le⟩
    simp only
    omega
  · exact ⟨htimed, hlow⟩

/-- The greater of a time and the current one. -/
theorem io_laterTime {anchor : TimeAnchor M} {now : Int} (hi : ProviderInv sw binding w) (ht : Flying t w)
    (hnow : Timed sw now anchor w) :
    IoSafe sw binding t (fun r w => Timed sw r.1 r.2 w)
      (RefreshingCredentialProvider.laterTime sw nowEpoch startEpoch startMonotonic now anchor) w := by
  refine io_andThen hi (io_currentTime hi ht hnow.counted) fun r w hi ht hr => ?_
  refine io_ret (Timed.stable _ _) ht ?_
  rw [max_eq_right hr.2]
  exact hr.1

/-- A refresh at the source. -/
theorem io_refresh {anchor : TimeAnchor M} {now : Int} (ht : Flying t w) (hnow : Timed sw now anchor w) :
    IoSafe sw binding t (fun _ w => Timed sw now anchor w) RefreshingCredentialProvider.refresh w := by
  refine io_cmd (Timed.stable now anchor) ⟨ht, hnow⟩ fun w x r w' hw hi hm => ?_
  cases x with
  | ok =>
    simp only [ProviderWorld.machine] at hm
    split_ifs at hm with hstate
    · cases hm
      exact ⟨hi, ProviderGuar.refl t w, io_fail hw.1⟩
    · cases hm
      obtain ⟨hi', hg⟩ := hi.beginRefresh hw.1 hstate
      refine ⟨hi', hg, io_cmd (Timed.stable now anchor) ⟨hw.1, hw.2⟩ fun w x r w' hw hi hm => ?_⟩
      cases x with
      | ok =>
        cases hm
        obtain ⟨hi', hg⟩ := hi.callSource hw.1
        refine ⟨hi', hg, io_cmd (Timed.stable_inFlight now anchor) ⟨hw.1.1, hw.2⟩ fun w x r w' hw hi hm => ?_⟩
        cases x with
        | grant reply =>
          cases hm
          obtain ⟨hi', hg, ht'⟩ := hi.sourceReply hw.1
          refine ⟨hi', hg, ?_⟩
          cases r with
          | value grant => exact io_ret (Timed.stable now anchor) ht' hw.2
          | raised e => exact io_fail ht'
        | _ => nomatch hm
      | _ => nomatch hm
  | _ => nomatch hm

/-- The grant to issue. -/
theorem io_grantToIssue {anchor : TimeAnchor M} {now minimum : Int} {cached : Option HeldGrant} (hi : ProviderInv sw binding w)
    (ht : Flying t w) (hnow : Timed sw now anchor w) :
    IoSafe sw binding t (fun _ w => Timed sw now anchor w)
      (RefreshingCredentialProvider.grantToIssue binding minimum cached now) w := by
  unfold RefreshingCredentialProvider.grantToIssue
  split_ifs
  · exact io_andThen hi (io_refresh ht hnow) fun grant w hi ht hnow => io_ret (Timed.stable now anchor) ht hnow
  · exact io_ret (Timed.stable now anchor) ht hnow

/-- What a call finds out outside the lock is in order. -/
theorem io_issue (minimum : Int) {cached : Option HeldGrant} (hi : ProviderInv sw binding w) (ht : Flying t w) :
    IoSafe sw binding t (fun issue w => Timed sw issue.now issue.anchor w ∧ IssueOk minimum issue)
      (RefreshingCredentialProvider.issue sw binding minimum nowEpoch cached) w := by
  unfold RefreshingCredentialProvider.issue
  refine io_andThen hi (io_start ht) fun startMonotonic w hi ht _ => ?_
  have hstable : ProviderStable t (fun w : ProviderWorld T M => Flying t w ∧ True) :=
    fun a b u hu hg h => ⟨Flying.stable a b u hu hg h.1, trivial⟩
  refine io_andThen (Q := fun _ _ => True) hi ?_ fun startEpoch w hi ht _ => ?_
  · cases nowEpoch with
    | none => exact io_clock hstable ht trivial
    | some n => exact io_ret hstable ht trivial
  refine io_andThen hi (io_timeAnchor ht (startEpoch, startMonotonic)) fun stored w hi ht hanchor => ?_
  have hcounted : Counted sw (stored.getD (startEpoch, startMonotonic)).1 (stored.getD (startEpoch, startMonotonic)) w :=
    ⟨hanchor, by omega⟩
  refine io_andThen hi (io_currentTime hi ht hcounted) fun r w hi ht hr => ?_
  refine io_andThen hi (io_available (Timed.stable r.1 r.2) ht hr.1) fun _ w hi ht hr => ?_
  refine io_andThen hi (io_laterTime hi ht hr) fun r w hi ht hr => ?_
  refine io_andThen hi (io_grantToIssue hi ht hr) fun result w hi ht hr => ?_
  refine io_andThen hi (io_available (Timed.stable r.1 r.2) ht hr) fun _ w hi ht hr => ?_
  refine io_andThen hi (io_laterTime hi ht hr) fun r w hi ht hr => ?_
  have hgrant : IoSafe sw binding t
      (fun g w => Timed sw r.1 r.2 w ∧ IssueOk minimum { grant := g, now := r.1, anchor := r.2, refreshed := result.2 })
      (RefreshingCredentialProvider.orFail (validateGrant binding result.1 r.1 minimum)) w :=
    io_except (fun g hg => ⟨Timed.stable_of _ _ _, hr, issueOk_of_validateGrant hg r.2 result.2⟩) ht
  exact io_andThen hi hgrant fun g w hi ht hg => io_ret (Timed.stable_of _ _ _) ht hg

/-- What a call that returned a snapshot has left in the log. -/
def ProviderPost (_ : T) (result : Option CredentialSnapshot) (w : ProviderWorld T M) : Prop :=
  ∀ s, result = some s → ∃ minimum, .returned minimum s ∈ w.log

theorem safe_unwrapProvider {ε γ : Type} {f : ε → ProviderError} {x : Except ε γ} :
    (RefreshingCredentialProvider.unwrap f x : ProviderProg M γ).Safe (providerSetting sw binding t) (fun a _ => x = .ok a)
      (fun _ _ => True) w := by
  cases x with
  | ok a => exact fun _ _ _ => rfl
  | error e => exact fun _ _ _ => trivial

/-- The first section of a call. -/
theorem acquire_safe : (Prog.cmd .acquire (RefreshingCredentialProvider.unwrap id) : ProviderProg M (Option HeldGrant)).Safe
    (providerSetting sw binding t) (fun _ w => Flying t w) (fun _ _ => True) w := by
  intro w _ hi x r w' hm
  cases x with
  | ok =>
    simp only [Team.setting, providers, ProviderWorld.machine] at hm
    split at hm
    · cases hm
      exact ⟨hi, ProviderGuar.refl t _, fun _ _ _ => trivial⟩
    · rename_i hallowed
      cases hm
      obtain ⟨hi', hg, ht⟩ := hi.acquire (t := t) hallowed
      exact ⟨hi', hg, fun w' he _ => Flying.stable.others he ht⟩
  | _ => nomatch hm

/-- What was returned stays in the log. -/
theorem returned_stable (s : CredentialSnapshot) (minimum : Int) :
    ProviderStable t (fun w : ProviderWorld T M => .returned minimum s ∈ w.log) :=
  fun _ _ _ _ hg h => hg.log.subset h

/-- The last section of a call. -/
theorem release_safe {minimum : Int} {outcome : Except IoFailure (Issue M)} (ht : Flying t w)
    (hok : ∀ issue, outcome = .ok issue → Timed sw issue.now issue.anchor w ∧ IssueOk minimum issue) :
    (Prog.cmd (.release minimum outcome) (RefreshingCredentialProvider.unwrap id) : ProviderProg M CredentialSnapshot).Safe
      (providerSetting sw binding t) (fun s w => .returned minimum s ∈ w.log) (fun _ _ => True) w := by
  have hstable : ProviderStable t (fun w : ProviderWorld T M => Flying t w ∧
      ∀ issue, outcome = .ok issue → Timed sw issue.now issue.anchor w ∧ IssueOk minimum issue) := by
    intro a b u hu hg h
    refine ⟨Flying.stable a b u hu hg h.1, fun issue hissue => ?_⟩
    obtain ⟨htimed, hok⟩ := h.2 issue hissue
    exact ⟨(Timed.stable _ _ a b u hu hg ⟨h.1, htimed⟩).2, hok⟩
  intro w' he hi x r w'' hm
  obtain ⟨ht', hok'⟩ := hstable.others he ⟨ht, hok⟩
  cases x with
  | ok =>
    cases hm
    obtain ⟨hi', hg⟩ := hi.release ht' minimum fun issue hissue => (hok' issue hissue).symm
    refine ⟨hi', hg, ?_⟩
    cases hr : w'.provider.answer binding outcome with
    | ok s =>
      refine fun w hw _ => (returned_stable s minimum).others hw ?_
      exact List.mem_append_right _ List.mem_cons_self
    | error e => exact fun _ _ _ => trivial
  | _ => nomatch hm

/-- A call of `snapshot` is safe to start. -/
theorem snapshot_safe (hi : ProviderInv sw binding w) (required minimum known : Doc) (nowEpoch : Option Doc) :
    (RefreshingCredentialProvider.snapshot sw binding required minimum known nowEpoch).Safe (providerSetting sw binding t)
      (fun s w => ∃ minimum, .returned minimum s ∈ w.log) (fun _ _ => True) w := by
  unfold RefreshingCredentialProvider.snapshot
  refine Prog.Safe.bind (Team.others_refl t) hi safe_unwrapProvider fun required w hi _ => ?_
  refine Prog.Safe.bind (Team.others_refl t) hi safe_unwrapProvider fun minimum w hi _ => ?_
  refine Prog.Safe.bind (Team.others_refl t) hi safe_unwrapProvider fun _ w hi _ => ?_
  refine Prog.Safe.bind (Team.others_refl t) hi safe_unwrapProvider fun nowEpoch w hi _ => ?_
  refine Prog.Safe.bind (Team.others_refl t) hi safe_unwrapProvider fun _ w hi _ => ?_
  refine Prog.Safe.bind (Team.others_refl t) hi acquire_safe fun cached w hi ht => ?_
  refine Prog.Safe.bind (Team.others_refl t) hi (io_issue minimum hi ht) fun outcome w hi hoc => ?_
  exact (release_safe hoc.1 hoc.2).mono (fun _ _ _ h => ⟨minimum, h⟩) (fun _ _ _ _ => trivial)

/-- Every call is safe to start. -/
theorem providers_safe : (providers T sw binding).CallsSafe (providerContract T sw binding) ProviderPost := by
  intro t call w hi
  cases call with
  | snapshot required minimum known nowEpoch =>
    refine Prog.Safe.bind (Team.others_refl t) hi (snapshot_safe hi required minimum known nowEpoch) fun s w hi hs => ?_
    obtain ⟨minimum, hin⟩ := hs
    intro w' he _ s' hs'
    cases hs'
    exact ⟨minimum, (returned_stable s minimum).others he hin⟩
  | revoke =>
    intro w' _ hi x r w'' hm
    cases x with
    | ok =>
      cases hm
      obtain ⟨hi', hg⟩ := hi.revoke (t := t)
      exact ⟨hi', hg, fun _ _ _ _ hs => nomatch hs⟩
    | _ => nomatch hm

theorem ProviderInv.initial (configured : Bool) (start : M) :
    ProviderInv sw binding (ProviderWorld.initial configured start : ProviderWorld T M) where
  flying := Nat.zero_le _
  busy := fun _ => rfl
  source := Nat.zero_le _
  inFlight := fun _ h => nomatch h
  ended := fun _ h => nomatch h
  blocked := fun _ => rfl
  cleared := fun _ => rfl
  times := fun _ h => nomatch h
  items := Log.holds_nil _

end Call

end Provider

end Keirin
