import ControlPlane.Controller.Changes

/-!
# The snapshot of a pass

A pass lists the claims once, at its start. So a claim that was being deleted when the pass began
is being deleted in every snapshot taken since, and each claim is in the snapshot once.
-/

namespace ControlPlane

open Interaction

variable {σ : Type} {P : ProviderModel σ} {provider : σ} {c c' : Daemon σ} {label : Label}
  {id : HostClaimId} {log : Happened} {claims : List HostClaimRecord} {claim : HostClaimRecord}

/-- The claims a pass listed. -/
def Listed (log : Happened) (claims : List HostClaimRecord) : Prop :=
  ∃ nowMs, [⟨.listClaims, .ok claims⟩, ⟨.nowUnixMs, nowMs⟩] <:+ log

/-- If the pass in progress listed a claim, it listed it as being deleted. -/
def ListedDeleting (id : HostClaimId) (log : Happened) : Prop :=
  ∀ claims, Listed log claims → ∀ claim ∈ claims, claim.resource.id = id →
    claim.resource.deletionTimestamp.isSome

theorem not_listed_nil : ¬Listed [] claims := by
  rintro ⟨nowMs, hsuffix⟩
  have hlength := hsuffix.length_le
  simp at hlength

/-- A pass lists the claims once. -/
theorem Listed.unique {other : List HostClaimRecord} (h : Listed log claims)
    (hother : Listed log other) : other = claims := by
  obtain ⟨nowMs, hsuffix⟩ := h
  obtain ⟨nowMs', hsuffix'⟩ := hother
  have hdrop := List.suffix_iff_eq_drop.mp hsuffix
  have hdrop' := List.suffix_iff_eq_drop.mp hsuffix'
  simp only [List.length_cons, List.length_nil] at hdrop hdrop'
  rw [← hdrop] at hdrop'
  cases hdrop'
  rfl

/-- A snapshot is taken by `list_claims` or was taken before. -/
theorem listed_step (hstep : (daemon P).Step reconcileOnce c label c')
    (h : Listed c'.log claims) :
    Listed c.log claims ∨ Storage.listClaims c.world.database = .ok claims := by
  have hanswered : ∀ {world world' : World σ} {effect : Effect} {answer : Answer effect}
      {log : Happened},
      answered P world effect answer world' → Listed (⟨effect, answer⟩ :: log) claims →
      Listed log claims ∨ Storage.listClaims world.database = .ok claims := by
    rintro world world' effect answer log hanswered ⟨nowMs, hsuffix⟩
    rcases List.suffix_cons_iff.mp hsuffix with hnew | hold
    · cases hnew
      exact .inr ((answered_listClaims hanswered).2 claims rfl)
    · exact .inl ⟨nowMs, hold⟩
  cases hstep with
  | interfere => exact .inl h
  | start | finish | crash => exact absurd h not_listed_nil
  | perform hexec => exact hanswered (.inl hexec) h
  | fault hfault => exact hanswered (.inr hfault) h

/-- What is listed of a claim being deleted says so. -/
theorem ListedDeleting.step (h : ListedDeleting id c.log)
    (hstep : (daemon P).Step reconcileOnce c label c')
    (hdeleting : ∀ stored, c.world.database.claim? id = some stored →
      stored.resource.deletionTimestamp.isSome) : ListedDeleting id c'.log := by
  rintro claims hlisted claim hmem rfl
  rcases listed_step hstep hlisted with hold | hnew
  · exact h claims hold claim hmem rfl
  · exact hdeleting claim (((Database.listClaims_ok hnew).2 claim).mp hmem)

theorem listedDeleting_nil : ListedDeleting id [] :=
  fun _ hlisted => absurd hlisted not_listed_nil

/-- Claims listed under one id are the same. -/
theorem listed_distinct (h : Reachable P System.anyStep provider c) (hlisted : Listed c.log claims)
    {other : HostClaimRecord} (hmem : claim ∈ claims) (hother : other ∈ claims)
    (hid : other.resource.id = claim.resource.id) : other = claim := by
  refine h.invariant (fun c => ∀ claims, Listed c.log claims → ∀ claim ∈ claims, ∀ other ∈ claims,
    other.resource.id = claim.resource.id → other = claim) ?_ ?_ claims hlisted claim hmem other
    hother hid
  · exact fun _ hnone => absurd hnone not_listed_nil
  intro first label second _ hstep _ ih claims hlisted claim hmem other hother hid
  rcases listed_step hstep hlisted with hold | hnew
  · exact ih claims hold claim hmem other hother hid
  · have hclaim := ((Database.listClaims_ok hnew).2 claim).mp hmem
    have hstored := ((Database.listClaims_ok hnew).2 other).mp hother
    rw [hid, hclaim] at hstored
    exact (Option.some_inj.mp hstored).symm

/-- A turn is about a claim of the snapshot. -/
theorem Turn.listed {nowMs : Int64} {base : Happened} {db : Database}
    (turn : Turn nowMs claim base db) (hsuffix : base <:+ log) :
    ∃ claims, Listed log claims ∧ claim ∈ claims := by
  obtain ⟨claims, hmem, hlisted⟩ := turn.snapshot
  exact ⟨claims, ⟨nowMs, hlisted.trans hsuffix⟩, hmem⟩

/-- The claim of a turn was listed once. -/
theorem Turn.listedDeleting {nowMs : Int64} {base : Happened} {db : Database}
    (turn : Turn nowMs claim base db) (h : Reachable P System.anyStep provider c)
    (hsuffix : base <:+ c.log) (hdeleting : claim.resource.deletionTimestamp.isSome) :
    ListedDeleting claim.resource.id c.log := by
  intro claims hlisted other hother hid
  obtain ⟨snapshot, hsnapshot, hmem⟩ := turn.listed hsuffix
  obtain rfl := hlisted.unique hsnapshot
  rw [listed_distinct h hlisted hmem hother hid]
  exact hdeleting

end ControlPlane
