import Dbx.SqlServer.ManualTransaction

/-!
# The outcome of a manual transaction

A request on a session has one of a few roles: it may still send statements or learn the outcome
(it holds the session), it only has an unknown outcome left to record (it is a scribe), or it has
been dropped while executing. At most one request holds the session. The busy mark keeps the
others out while a request executes, and the removal from the map hands the session over. Only a
disconnect takes a busy session, and it does not send anything then. The request it took the
session from fails as interrupted, unless it was about to roll the transaction back anyway: then
the disconnect records an unknown outcome over the acknowledged one.

## Main definitions

* `Role`, `Phase.role`: what a request can still do
* `Fits`, `Apart`: what a role says about the session, and which roles exclude each other
-/

namespace Dbx.SqlServer

open Transition List State

/-- What a request can still do. -/
inductive Role
  /-- Nothing. -/
  | absent
  /-- Its guard has not looked for the session yet. -/
  | dropped
  /-- It records an unknown outcome. -/
  | scribe
  /-- It has the session marked busy and may roll back, whatever the lifecycle says. -/
  | early
  /-- It has the session marked busy and sends nothing. -/
  | mid
  /-- It runs user SQL. -/
  | running
  /-- It has taken the session and has not ended the transaction. -/
  | ender
  /-- It awaits the answer to its statement. -/
  | sent
  /-- It knows the outcome and has not finished recording it. -/
  | known (outcome : Outcome)
  deriving DecidableEq, Repr

/-- The role of a request that has this outcome to record. -/
def Outcome.role : Outcome → Role
  | .unknown => .scribe
  | outcome => .known outcome

/-- The role of a request. -/
def Phase.role : Phase → Role
  | .idle | .draining => .absent
  | .dropped => .dropped
  | .entered _ _ | .ending _ | .broken false _ => .early
  | .admitted | .succeeded | .broken true _ => .mid
  | .running => .running
  | .cleaning _ _ _ false | .finishing _ | .prepared _ | .deciding _ | .disconnecting false
  | .closing false | .expiring | .idling | .idleReady => .ender
  | .rollingBack _ _ _ | .sent _ | .idleSent => .sent
  | .cleaning _ _ _ true | .disconnecting true | .closing true | .interrupted => .scribe
  | .cleaned _ failure | .idleDone failure => failure.outcome.role
  | .answered commit none | .releasing commit none => .known (outcomeOf commit)
  | .answered _ (some _) | .releasing _ (some _) => .scribe

/-- The request may still send a statement or learn the outcome. -/
def Role.holds : Role → Bool
  | .absent | .dropped | .scribe => false
  | _ => true

/-- A request that a disconnect may take its session from. -/
def Role.yields : Role → Bool
  | .mid | .running => true
  | _ => false

variable {T : Type}

def Unsettled (s : State T) : Prop := ∀ failure ∈ s.ends, failure.outcome = .unknown

def Unended (s : State T) : Prop := ∀ commit, .ending commit ∉ s.wire

/-- The session is marked busy, or a disconnect has taken it. -/
def Occupied (s : State T) : Prop := s.session = some true ∨ s.session = none ∧ s.cancelled = true

/-- What a request of the role knows about the session. -/
def Fits (s : State T) : Role → Prop
  | .absent => True
  | .dropped => s.session ≠ some false
  | .scribe => s.session = none ∧ Unsettled s
  | .early => s.session = some true ∧ s.pending = false
  | .mid => Occupied s ∧ s.pending = false ∧ Unsettled s ∧ Unended s
  | .running => Occupied s ∧ Unsettled s ∧ Unended s
  | .ender => s.session = none ∧ s.pending = false ∧ Unsettled s ∧ Unended s
  | .sent => s.session = none ∧ s.pending = false ∧ Unsettled s
  | .known outcome => s.session = none ∧ s.pending = false ∧ Acknowledged s.wire outcome ∧
      ∀ failure ∈ s.ends, failure.outcome = .unknown ∨ failure.outcome = outcome

/-- Two requests of these roles do not meet, except where a disconnect took the session. -/
structure Apart (s : State T) (r q : Role) : Prop where
  single : r.holds → q.holds → False
  droppedRight : r.holds → q = .dropped → s.session = none
  droppedLeft : q.holds → r = .dropped → s.session = none
  dropped : r = .dropped → q = .dropped → s.session = none
  scribeRight : r.holds → q = .scribe → r.yields ∧ s.cancelled
  scribeLeft : q.holds → r = .scribe → q.yields ∧ s.cancelled

variable {q r : Role} {s : State T}

theorem Apart.symm (h : Apart s r q) : Apart s q r :=
  ⟨fun hq hr => h.single hr hq, h.droppedLeft, h.droppedRight, fun hq hr => h.dropped hr hq,
    h.scribeLeft, h.scribeRight⟩

/-- No session comes back, and no lifecycle is restored. -/
structure Later (s s' : State T) : Prop where
  session : s.session = none → s'.session = none
  cancelled : s.cancelled = true → s'.cancelled = true

variable {s' : State T}

theorem Apart.mono (h : Apart s r q) (hlater : Later s s') :
    Apart s' r q where
  single := h.single
  droppedRight hr hq := hlater.session (h.droppedRight hr hq)
  droppedLeft hq hr := hlater.session (h.droppedLeft hq hr)
  dropped hr hq := hlater.session (h.dropped hr hq)
  scribeRight hr hq := ⟨(h.scribeRight hr hq).1, hlater.cancelled (h.scribeRight hr hq).2⟩
  scribeLeft hq hr := ⟨(h.scribeLeft hq hr).1, hlater.cancelled (h.scribeLeft hq hr).2⟩

/-- The invariant of the unclaimed runs. -/
structure Inv (s : State T) : Prop extends Honest s where
  opened : s.session ≠ none → Unsettled s ∧ Unended s
  pending : s.pending = true → s.session ≠ some false ∧ Unended s
  fits : ∀ t, Fits s (s.phase t).role
  apart : ∀ t u, t ≠ u → Apart s (s.phase t).role (s.phase u).role

open Phase

open Role

attribute [local simp] role enter Unsettled Unended Fits yields

theorem Inv.init (transport : Transport) (idleTimeout : Nat) :
    Inv (.init transport idleTimeout : State T) where
  ends := by simp [State.init]
  reports := by simp [State.init]
  orderly := by
    intro before commit after h
    simp [State.init] at h
  opened _ := by simp [State.init]
  pending h := by simp [State.init] at h
  fits _ := by simp [State.init]
  apart t u _ := by constructor <;> simp [State.init, holds]

/-- The old role of a request excludes what its new role excludes. -/
structure Covers (s : State T) (r r' : Role) : Prop where
  holds : r'.holds → r.holds ∧ (r.yields → s.cancelled → r'.yields)
  dropped : r' = .dropped → r = .dropped ∨ r.holds ∨ s.session = none
  scribe : r' = .scribe → r = .scribe ∨ r.holds

theorem Covers.refl (s : State T) (r : Role) : Covers s r r :=
  ⟨fun hr => ⟨hr, fun hy _ => hy⟩, .inl, .inl⟩

theorem Apart.covers {r r' q : Role} (h : Apart s r q) (hcovers : Covers s r r') :
    Apart s r' q where
  single hr' := h.single (hcovers.holds hr').1
  droppedRight hr' := h.droppedRight (hcovers.holds hr').1
  droppedLeft hq hr' := by
    rcases hcovers.dropped hr' with hr | hr | hnone
    · exact h.droppedLeft hq hr
    · exact (h.single hr hq).elim
    · exact hnone
  dropped hr' hq := by
    rcases hcovers.dropped hr' with hr | hr | hnone
    · exact h.dropped hr hq
    · exact h.droppedRight hr hq
    · exact hnone
  scribeRight hr' hq := by
    obtain ⟨hr, hyields⟩ := hcovers.holds hr'
    obtain ⟨hry, hcancelled⟩ := h.scribeRight hr hq
    exact ⟨hyields hry hcancelled, hcancelled⟩
  scribeLeft hq hr' := by
    rcases hcovers.scribe hr' with hr | hr
    · exact h.scribeLeft hq hr
    · exact (h.single hr hq).elim

theorem Apart.of_holds (h : Apart s r q) (hr : r.holds)
    (hyields : r.yields = false) : q = .absent ∨ q = .dropped := by
  have hsingle := h.single hr
  have hscribe := h.scribeRight hr
  cases q <;> simp_all [holds]

theorem acknowledged_unknown (wire : List Message) : Acknowledged wire .unknown := by
  intro commit h
  cases commit <;> cases h

theorem Acknowledged.append {wire : List Message} {outcome : Outcome}
    (h : Acknowledged wire outcome) (messages : List Message) :
    Acknowledged (wire ++ messages) outcome :=
  fun commit houtcome => mem_append_left _ (h commit houtcome)

theorem acknowledged_self (wire : List Message) (commit : Bool) :
    Acknowledged (wire ++ [.acknowledged commit]) (outcomeOf commit) := by
  intro other h
  cases commit <;> cases other <;> simp_all [outcomeOf]

/-! ### Steps that leave the session alone -/

/-- The two states agree on the session, the record and the messages. -/
structure Agrees (s s' : State T) : Prop where
  session : s'.session = s.session
  cancelled : s'.cancelled = s.cancelled
  pending : s'.pending = s.pending
  ends : s'.ends = s.ends
  wire : s'.wire = s.wire
  reports : ∀ report ∈ s'.reports, Acknowledged s.wire report.outcome

theorem Agrees.fits (h : Agrees s s') : Fits s' r ↔ Fits s r := by
  cases r <;> simp [Occupied, h.session, h.cancelled, h.pending, h.ends, h.wire]

theorem Agrees.later (h : Agrees s s') : Later s s' :=
  ⟨fun hnone => h.session.trans hnone, fun hc => h.cancelled.trans hc⟩

theorem Agrees.honest (h : Agrees s s') (hs : Honest s) : Honest s' where
  ends := by simpa [h.ends, h.wire] using hs.ends
  reports := by simpa [h.wire] using h.reports
  orderly := h.wire ▸ hs.orderly

/-- The clock, the lock of the connection and the native client are nobody's knowledge. -/
theorem Inv.aside (h : Inv s) (clock lastActivity : Nat) (holder : Option T) (client : Bool) :
    Inv { s with clock := clock, lastActivity := lastActivity, holder := holder, client := client }
    where
  __ := h
  apart t u htu := (h.apart t u htu).mono ⟨id, id⟩

variable {failure : Failure}

/-- What is known of the session stays known while nothing but unknown outcomes are recorded and
nothing but user SQL is sent. -/
theorem Fits.mono {r : Role} (h : Fits s r) (hsession : s'.session = s.session)
    (hcancelled : s.cancelled → s'.cancelled)
    (hpending : s.pending = false → s'.pending = false)
    (hends : ∀ failure ∈ s'.ends, failure.outcome = .unknown ∨ failure ∈ s.ends)
    (hunended : Unended s → Unended s')
    (hwire : ∀ outcome, Acknowledged s.wire outcome → Acknowledged s'.wire outcome) :
    Fits s' r := by
  have hunsettled : Unsettled s → Unsettled s' := fun hs failure hf =>
    (hends failure hf).elim id (hs failure)
  have hoccupied : Occupied s → Occupied s' := by
    rintro (hs | ⟨hs, hc⟩)
    · exact .inl (hsession.trans hs)
    · exact .inr ⟨hsession.trans hs, hcancelled hc⟩
  cases r with
  | absent => trivial
  | dropped => exact fun hs => h (hsession.symm.trans hs)
  | scribe => exact ⟨hsession.trans h.1, hunsettled h.2⟩
  | early => exact ⟨hsession.trans h.1, hpending h.2⟩
  | mid => exact ⟨hoccupied h.1, hpending h.2.1, hunsettled h.2.2.1, hunended h.2.2.2⟩
  | running => exact ⟨hoccupied h.1, hunsettled h.2.1, hunended h.2.2⟩
  | ender => exact ⟨hsession.trans h.1, hpending h.2.1, hunsettled h.2.2.1, hunended h.2.2.2⟩
  | sent => exact ⟨hsession.trans h.1, hpending h.2.1, hunsettled h.2.2⟩
  | known outcome =>
    refine ⟨hsession.trans h.1, hpending h.2.1, hwire _ h.2.2.1, fun failure hf => ?_⟩
    exact (hends failure hf).elim .inl (h.2.2.2 failure)

/-- An unknown outcome is recorded. -/
theorem Inv.recordUnknown (h : Inv s)
    (hfailure : failure.outcome = .unknown) : Inv (s.recorded failure) where
  __ := h
  ends := by
    rintro _ ⟨⟩
    rw [hfailure]
    exact acknowledged_unknown s.wire
  opened hsome := by
    refine ⟨?_, (h.opened hsome).2⟩
    rintro _ ⟨⟩
    exact hfailure
  fits t := by
    refine (h.fits t).mono rfl id id ?_ id fun _ => id
    rintro _ ⟨⟩
    exact .inl hfailure
  apart t u htu := (h.apart t u htu).mono ⟨id, id⟩

theorem Orderly.concat {wire : List Message} {message : Message} (h : Orderly wire)
    (hmessage : message.IsStatement → ∀ commit, .ending commit ∉ wire) :
    Orderly (wire ++ [message]) := by
  intro before commit after heq other hother hstatement
  -- the last message is the end itself, or comes after it
  rcases eq_nil_or_concat after with rfl | ⟨rest, last, rfl⟩
  · cases hother
  have hsplit : wire ++ [message] = (before ++ .ending commit :: rest) ++ [last] := by
    simpa using heq
  obtain ⟨hwire, hlast⟩ := append_inj' hsplit rfl
  obtain rfl := singleton_inj.mp hlast
  have hend : .ending commit ∈ wire := by simp [hwire]
  rw [concat_eq_append] at hother
  rcases mem_append.mp hother with hrest | hnew
  · exact h before commit rest hwire other hrest hstatement
  · obtain rfl := mem_singleton.mp hnew
    exact hmessage hstatement commit hend

/-- User SQL is sent before any end of the transaction. -/
theorem Inv.userSql (h : Inv s) (hunended : Unended s) {pending : Bool}
    (hpending : pending → s.pending) :
    Inv { s.message .userSql with pending := pending } := by
  have hstill : Unended { s.message .userSql with pending := pending } := by
    simpa [message] using hunended
  refine { ends := fun failure hf => (h.ends failure hf).append _
           reports := fun report hr => (h.reports report hr).append _
           orderly := h.orderly.concat fun _ => hunended
           opened := fun hsome => ⟨(h.opened hsome).1, hstill⟩
           pending := fun hp => ⟨(h.pending (hpending hp)).1, hstill⟩
           fits := fun t => ?_, apart := fun t u htu => (h.apart t u htu).mono ⟨id, id⟩ }
  refine (h.fits t).mono rfl id (fun hfalse => ?_) (fun _ => .inr) (fun _ => hstill) fun _ hack =>
    hack.append _
  cases pending with
  | false => rfl
  | true => exact absurd (hpending rfl) (by simp [hfalse])

theorem Fits.eq_absent (h : Fits s r) (hsession : s.session = some false) : r = .absent := by
  cases r <;> simp_all [Fits, Occupied]

theorem Inv.acknowledged_missing (h : Inv s) : Acknowledged s.wire (missing s.ends).outcome := by
  cases hends : s.ends with
  | none => exact acknowledged_unknown s.wire
  | some failure => exact h.ends failure hends

theorem Inv.not_pending (h : Inv s) (hidle : s.session = some false) : s.pending = false := by
  cases hpending : s.pending with
  | false => rfl
  | true => exact absurd hidle (h.pending hpending).1

theorem Inv.ender_of_idle (h : Inv s) (hidle : s.session = some false) :
    Fits { s with session := none } .ender := by
  obtain ⟨hunsettled, hunended⟩ := h.opened (by simp [hidle])
  exact ⟨rfl, h.not_pending hidle, hunsettled, hunended⟩

/-- A request that has anything to do with the session keeps it from being idle in the map. -/
theorem Fits.covers_dropped (h : Fits s r) (hr : r ≠ .absent) :
    Covers s r .dropped ∧ Fits s .dropped := by
  have hsession : s.session ≠ some false := by
    intro hidle
    exact hr (h.eq_absent hidle)
  refine ⟨{ holds := by simp [holds], dropped := fun _ => ?_, scribe := by simp }, hsession⟩
  cases r with
  | absent => exact absurd rfl hr
  | dropped => exact .inl rfl
  | scribe => exact .inr (.inr h.1)
  | _ => exact .inr (.inl rfl)

variable {p : Phase}

theorem Phase.eq_of_role_absent (h : p.role = .absent) : p = .idle ∨ p = .draining := by
  unfold role at h
  split at h <;> simp_all
  all_goals
    unfold Outcome.role at h
    split at h <;> cases h

/-- What is left of a dropped request is covered by what it was. -/
theorem covers_afterDrop {p p' : Phase} (hfits : Fits s p.role)
    (h : afterDrop p = some p') : Covers s p.role p'.role ∧ Fits s p'.role := by
  have hcases : p' = .dropped ∨ p' = .idle := by
    unfold afterDrop at h
    split at h <;> simp_all
  have hrole : p.role ≠ .absent := by
    intro habsent
    rcases eq_of_role_absent habsent with rfl | rfl <;> cases h
  rcases hcases with rfl | rfl
  · exact hfits.covers_dropped hrole
  · refine ⟨?_, trivial⟩
    constructor <;> simp [holds]

variable [DecidableEq T]

open Function

variable (h : Inv s) (t : T)

include h

omit [DecidableEq T] in
theorem Inv.fitsAt {t : T} (hrole : (s.phase t).role = r) : Fits s r := hrole ▸ h.fits t

/-- One request moves, and the others keep what they know. -/
theorem Inv.move (p : Phase)
    (hphase : s'.phase = update s.phase t p) (hlater : Later s s') (hhonest : Honest s')
    (hopened : s'.session ≠ none → Unsettled s' ∧ Unended s')
    (hpending : s'.pending → s'.session ≠ some false ∧ Unended s') (hfits : Fits s' p.role)
    (hothers : ∀ u, u ≠ t → Fits s' (s.phase u).role ∧ Apart s' p.role (s.phase u).role) :
    Inv s' where
  toHonest := hhonest
  opened := hopened
  pending := hpending
  fits u := by
    by_cases hut : u = t
    · subst hut
      simpa [hphase] using hfits
    · rw [hphase, update_of_ne hut]
      exact (hothers u hut).1
  apart u v huv := by
    rw [hphase]
    by_cases hut : u = t
    · subst hut
      rw [update_self, update_of_ne huv.symm]
      exact (hothers v huv.symm).2
    · by_cases hvt : v = t
      · subst hvt
        rw [update_self, update_of_ne hut]
        exact (hothers u hut).2.symm
      · rw [update_of_ne hut, update_of_ne hvt]
        exact (h.apart u v huv).mono hlater

/-- A request moves on, and nothing else changes. -/
theorem Inv.quiet (p : Phase) (hphase : s'.phase = update s.phase t p) (hagrees : Agrees s s')
    (hcovers : Covers s (s.phase t).role p.role) (hfits : Fits s p.role) : Inv s' := by
  refine h.move t p hphase hagrees.later (hagrees.honest h.toHonest) ?_ ?_ (hagrees.fits.mpr hfits)
    ?_
  · simpa [hagrees.session, hagrees.ends, hagrees.wire] using h.opened
  · simpa [hagrees.session, hagrees.pending, hagrees.wire] using h.pending
  · intro u hu
    have hapart := h.apart t u hu.symm
    exact ⟨hagrees.fits.mpr (h.fits u), (hapart.covers hcovers).mono hagrees.later⟩

theorem Inv.enter
    (hcovers : Covers s (s.phase t).role p.role) (hfits : Fits s p.role) : Inv (s.enter t p) :=
  h.quiet t p rfl ⟨rfl, rfl, rfl, rfl, rfl, h.reports⟩ hcovers hfits

theorem Inv.leave : Inv (s.leave t) := by
  refine h.quiet t .idle rfl ⟨rfl, rfl, rfl, rfl, rfl, h.reports⟩ ?_ trivial
  constructor <;> simp [holds]

theorem Inv.return {report : Report}
    (hreport : Acknowledged s.wire report.outcome) : Inv (s.return t report) := by
  refine h.quiet t .idle rfl ⟨rfl, rfl, rfl, rfl, rfl, ?_⟩ ?_ trivial
  · exact forall_mem_append.mpr ⟨h.reports, forall_mem_singleton.mpr hreport⟩
  · constructor <;> simp [holds]

/-! ### Steps that record and steps that end the transaction -/

/-- Beside a request that has the session to itself there are only idle and dropped ones. -/
theorem Inv.alone (p : Phase)
    (hrole : (s.phase t).role = r) (hholds : r.holds) (hyields : r.yields = false)
    (hphase : s'.phase = update s.phase t p) (hlater : Later s s') (hhonest : Honest s')
    (hnone : s'.session = none) (hpending : s'.pending = false) (hfits : Fits s' p.role) :
    Inv s' := by
  refine h.move t p hphase hlater hhonest (fun hsome => absurd hnone hsome)
    (fun htrue => by simp [hpending] at htrue) hfits ?_
  intro u hu
  rcases (hrole ▸ h.apart t u hu.symm).of_holds hholds hyields with hq | hq
  · rw [hq]
    exact ⟨trivial, by constructor <;> simp [holds]⟩
  · rw [hq]
    refine ⟨by simp [hnone], ?_⟩
    constructor <;> simp [holds, hnone]

/-- A known outcome is recorded by the request that knows it. -/
theorem Inv.recordKnown {client : Bool} {holder : Option T} {reports : List Report}
    (hrole : (s.phase t).role = .known failure.outcome)
    (hp : p.role = .known failure.outcome ∨ p.role = .absent)
    (hreports : ∀ report ∈ reports, report ∈ s.reports ∨ report.outcome = failure.outcome) :
    Inv { s with
      client := client, holder := holder, ends := some failure, reports := reports
      phase := update s.phase t p } := by
  obtain ⟨hnone, hidle, hacknowledged, -⟩ := h.fitsAt hrole
  refine h.alone t p hrole rfl rfl rfl ⟨id, id⟩ ⟨?_, fun report hreport => ?_, h.orderly⟩ hnone
    hidle ?_
  · rintro _ ⟨⟩
    exact hacknowledged
  · rcases hreports report hreport with hold | hnew
    · exact h.reports report hold
    · rw [hnew]
      exact hacknowledged
  · rcases hp with hknown | habsent
    · rw [hknown]
      refine ⟨hnone, hidle, hacknowledged, ?_⟩
      rintro _ ⟨⟩
      exact .inr rfl
    · rw [habsent]
      trivial

/-- The request that has taken the session ends the transaction. -/
theorem Inv.send (commit : Bool) (hrole : (s.phase t).role = .ender) (hp : p.role = .sent) :
    Inv ((s.message (.ending commit)).enter t p) := by
  obtain ⟨hnone, hpending, hunsettled, hunended⟩ := h.fitsAt hrole
  refine h.alone t p hrole rfl rfl rfl ⟨id, id⟩ ?_ hnone hpending ?_
  · refine ⟨?_, ?_, h.orderly.concat fun _ => hunended⟩
    · exact fun failure hf => (h.ends failure hf).append _
    · exact fun report hr => (h.reports report hr).append _
  · rw [hp]
    exact ⟨hnone, hpending, hunsettled⟩

/-- The server acknowledges the end of the transaction. -/
theorem Inv.acknowledge (commit : Bool)
    (hrole : (s.phase t).role = .sent) (hp : p.role = .known (outcomeOf commit)) :
    Inv ((s.message (.acknowledged commit)).enter t p) := by
  obtain ⟨hnone, hpending, hunsettled⟩ := h.fitsAt hrole
  refine h.alone t p hrole rfl rfl rfl ⟨id, id⟩ ?_ hnone hpending ?_
  · refine ⟨?_, ?_, h.orderly.concat fun hstatement => hstatement.elim⟩
    · exact fun failure hf => (h.ends failure hf).append _
    · exact fun report hr => (h.reports report hr).append _
  · rw [hp]
    exact ⟨hnone, hpending, acknowledged_self s.wire commit, fun failure hf =>
      .inl (hunsettled failure hf)⟩

/-! ### Steps that hand the session over -/

/-- The session is marked busy or taken by a request that had nothing to do. -/
theorem Inv.claim (session : Option Bool) (hidle : s.session = some false)
    (hfits : Fits { s with session := session } p.role)
    (hsession : session ≠ some false) :
    Inv ({ s with session := session }.enter t p) := by
  obtain ⟨hunsettled, hunended⟩ := h.opened (by simp [hidle])
  refine h.move t p rfl ⟨fun hnone => by simp [hidle] at hnone, id⟩
    ⟨h.ends, h.reports, h.orderly⟩ (fun _ => ⟨hunsettled, hunended⟩)
    (fun _ => ⟨hsession, hunended⟩) hfits ?_
  intro u _
  rw [(h.fits u).eq_absent hidle]
  exact ⟨trivial, by constructor <;> simp [holds]⟩

/-- An agent call is started by the request that runs user SQL. -/
theorem Inv.startCall (hphase : s.phase t = .running) : Inv { s with pending := true } := by
  obtain ⟨hoccupied, hunsettled, hunended⟩ := h.fitsAt (congrArg role hphase)
  have hbusy : s.session ≠ some false := by
    rcases hoccupied with hs | ⟨hs, -⟩ <;> simp [hs]
  refine h.move t .running ?_ ⟨id, id⟩ ⟨h.ends, h.reports, h.orderly⟩ h.opened
    (fun _ => ⟨hbusy, hunended⟩) ⟨hoccupied, hunsettled, hunended⟩ ?_
  · rw [← hphase, update_eq_self]
  · intro u hu
    have hapart := h.apart t u hu.symm
    rw [hphase] at hapart
    refine ⟨?_, hapart.mono ⟨id, id⟩⟩
    -- nobody else holds the session, and nobody else minds a call
    have hsingle := hapart.single rfl
    have hq := h.fits u
    generalize (s.phase u).role = q at hsingle hq
    cases q <;> simp_all [holds, Fits, Unsettled]

/-- A request takes the session, which the others have nothing to do with or yield. -/
theorem Inv.take (hunsettled : Unsettled s) (hp : p.role = .scribe)
    (hyields : ∀ u ≠ t, (s.phase u).role.holds → (s.phase u).role.yields ∧ s.cancelled) :
    Inv ({ s with session := none }.enter t p) := by
  refine h.move t p rfl ⟨fun _ => rfl, id⟩ ⟨h.ends, h.reports, h.orderly⟩
    (fun hsome => absurd rfl hsome) (fun hp => ⟨by simp, (h.pending hp).2⟩) ?_ ?_
  · rw [hp]
    exact ⟨rfl, hunsettled⟩
  · intro u hu
    have hq := h.fits u
    have hholds := hyields u hu
    rw [hp]
    generalize (s.phase u).role = q at hq hholds
    refine ⟨?_, ⟨nofun, nofun, nofun, nofun, nofun, fun hq _ => hholds hq⟩⟩
    cases q with
    | absent => trivial
    | dropped => simp
    | scribe => exact ⟨rfl, hq.2⟩
    | mid | running => exact ⟨.inr ⟨rfl, (hholds rfl).2⟩, hq.2⟩
    | _ => cases (hholds rfl).1

/-- A disconnect takes a busy session from a request that yields it, or from a dropped one. -/
theorem Inv.disconnectBusy (hbusy : s.session = some true)
    (hcancelled : s.cancelled) (hunclaimed : ∀ u, (s.phase u).role ≠ .early) :
    Inv ({ s with session := none }.enter t (.disconnecting true)) := by
  refine h.take t (h.opened (by simp [hbusy])).1 rfl fun u _ hholds => ?_
  have hq := h.fits u
  have hearly := hunclaimed u
  generalize (s.phase u).role = q at hq hearly hholds
  cases q with
  | absent | dropped | scribe => cases hholds
  | early => exact absurd rfl hearly
  | mid | running => exact ⟨rfl, hcancelled⟩
  | _ => simp [hbusy] at hq

/-- The guard of a dropped request takes the session. -/
theorem Inv.takeDropped (hdropped : s.phase t = .dropped)
    (hsome : s.session ≠ none) : Inv ({ s with session := none }.enter t .interrupted) := by
  refine h.take t (h.opened hsome).1 rfl fun u hu hholds => ?_
  -- a dropped request in the map leaves nobody else to do with the session
  have hapart := h.apart t u hu.symm
  rw [hdropped] at hapart
  exact absurd (hapart.droppedLeft hholds rfl) hsome

/-- An executing request that is to roll back takes its session out of the map. -/
theorem Inv.removeEarly (hrole : (s.phase t).role = .early) (hp : p.role = .ender) :
    Inv ({ s with session := none }.enter t p) := by
  have hfits : Fits s .early := h.fitsAt hrole
  obtain ⟨hunsettled, hunended⟩ := h.opened (by simp [hfits.1])
  refine h.alone t p hrole rfl rfl rfl ⟨fun _ => rfl, id⟩ ⟨h.ends, h.reports, h.orderly⟩ rfl
    hfits.2 ?_
  rw [hp]
  exact ⟨rfl, hfits.2, hunsettled, hunended⟩

/-- An interrupted request takes its session out of the map, if it is still there. -/
theorem Inv.removeMid (hrole : (s.phase t).role = .mid) (hp : p.role = .scribe) :
    Inv ({ s with session := none }.enter t p) := by
  refine h.take t (h.fitsAt hrole).2.2.1 hp fun u hu hholds => ?_
  have hapart := h.apart t u hu.symm
  rw [hrole] at hapart
  exact (hapart.single rfl hholds).elim

/-- An executing request that is done clears the busy mark of its session, if it is still there. -/
theorem Inv.free {session : Option Bool} {lastActivity : Nat} {report : Report}
    (hrole : (s.phase t).role = .mid) (hsession : session = s.session.map fun _ => false)
    (hreport : Acknowledged s.wire report.outcome) :
    Inv ({ s with session := session, lastActivity := lastActivity }.return t report) := by
  obtain ⟨-, hidle, hunsettled, hunended⟩ := h.fitsAt hrole
  have hreports := forall_mem_append.mpr ⟨h.reports, forall_mem_singleton.mpr hreport⟩
  refine h.move t .idle rfl ⟨fun hnone => ?_, id⟩ ⟨h.ends, hreports, h.orderly⟩
    (fun _ => ⟨hunsettled, hunended⟩) (fun hp => absurd (hidle.symm.trans hp) Bool.false_ne_true)
    trivial ?_
  · exact hsession.trans (by rw [hnone]; rfl)
  · intro u hu
    have hapart := h.apart t u hu.symm
    rw [hrole] at hapart
    have hsingle := hapart.single rfl
    have hdropped := hapart.droppedRight rfl
    have hq := h.fits u
    generalize (s.phase u).role = q at hq hsingle hdropped
    refine ⟨?_, by constructor <;> simp [holds]⟩
    cases q with
    | absent => trivial
    | dropped => simp [State.return, State.leave, hsession, hdropped rfl]
    | scribe => exact ⟨hsession.trans (by rw [hq.1]; rfl), hq.2⟩
    | _ => exact (hsingle rfl).elim

/-! ### Every step -/

theorem Inv.stay (hp : p.role = (s.phase t).role) : Inv (s.enter t p) := by
  refine h.enter t ?_ ?_
  · rw [hp]
    exact .refl s _
  · rw [hp]
    exact h.fits t

/-- A request that holds the session gives up: it has an unknown outcome left to record. -/
theorem Inv.giveUp
    (hrole : (s.phase t).role = .ender ∨ (s.phase t).role = .sent) (hp : p.role = .scribe) :
    Inv (s.enter t p) := by
  have hholds : (s.phase t).role.holds ∧ Fits s .scribe := by
    rcases hrole with hrole | hrole
    · obtain ⟨hnone, -, hunsettled, -⟩ := h.fitsAt hrole
      exact ⟨hrole ▸ rfl, hnone, hunsettled⟩
    · obtain ⟨hnone, -, hunsettled⟩ := h.fitsAt hrole
      exact ⟨hrole ▸ rfl, hnone, hunsettled⟩
  refine h.enter t ?_ (hp ▸ hholds.2)
  rw [hp]
  exact ⟨nofun, nofun, fun _ => .inr hholds.1⟩

theorem Inv.execute (contextChanged controlConflict : Bool) :
    Inv (execute s t contextChanged controlConflict) := by
  unfold SqlServer.execute
  split
  · exact h.return t (acknowledged_unknown s.wire)
  split
  · exact h.return t h.acknowledged_missing
  · exact h.return t (acknowledged_unknown s.wire)
  case h_3 hidle =>
    exact h.claim t (some true) hidle ⟨rfl, h.not_pending hidle⟩ (by simp)

theorem Inv.finish (commit : Bool) : Inv (finish s t commit) := by
  unfold SqlServer.finish
  split
  · exact h.return t h.acknowledged_missing
  · exact h.return t (acknowledged_unknown s.wire)
  case h_3 hidle => exact h.claim t none hidle (h.ender_of_idle hidle) (by simp)

omit h

variable {t : T}

theorem Inv.locked (h : Inv s) (hstep : locked s t = some s') : Inv s' := by
  have hheld := h.aside s.clock s.lastActivity (some t) s.client
  unfold SqlServer.locked at hstep
  simp only at hstep
  split at hstep <;> try cases hstep
  case h_1 contextChanged expired hphase =>
    split at hstep <;> cases hstep
    · exact hheld.stay t (by simp [hphase])
    · -- the request has found the lifecycle current
      have hfits := h.fits t
      rw [hphase] at hfits
      obtain ⟨hunsettled, hunended⟩ := h.opened (by simp [hfits.1])
      refine hheld.enter t ?_ ⟨.inl hfits.1, hfits.2, hunsettled, hunended⟩
      rw [show ({ s with holder := some t } : State T).phase t = _ from hphase]
      constructor <;> simp [holds]
  case h_2 commit hphase =>
    split at hstep <;> cases hstep <;> exact hheld.stay t (by simp [hphase])
  case h_3 busy hphase =>
    refine hheld.stay t ?_
    cases busy <;> simp [hphase]
  case h_4 hphase => exact hheld.stay t (by simp [hphase])
  case h_5 => exact hheld.leave t

theorem Inv.remove (h : Inv s) (hstep : remove s t = some s') : Inv s' := by
  unfold SqlServer.remove at hstep
  split at hstep <;> try cases hstep
  case h_1 kind hphase => exact h.removeEarly t (by rw [hphase]; rfl) rfl
  case h_2 interrupted error hphase =>
    cases interrupted with
    | false => exact h.removeEarly t (by rw [hphase]; rfl) rfl
    | true => exact h.removeMid t (by rw [hphase]; rfl) rfl
  case h_3 hphase =>
    split at hstep <;> cases hstep
    case h_1 busy hsome => exact h.takeDropped t hphase (by simp [hsome])
    case h_2 => exact h.leave t

variable {refusal : Option Refusal}

include h

theorem Inv.clean (hstep : clean s t refusal = some s') : Inv s' := by
  unfold SqlServer.clean at hstep
  split at hstep <;> try cases hstep
  case h_1 hphase => exact h.stay t (by rw [hphase]; rfl)
  case h_2 hphase =>
    split at hstep <;> cases hstep
    case h_1 refusal' _ =>
      refine h.giveUp t (.inl (by rw [hphase]; rfl)) ?_
      cases refusal' <;> rfl
    case h_2 => exact h.send t false (by rw [hphase]; rfl) rfl

theorem Inv.sends (hstep : SqlServer.send s t refusal = some s') : Inv s' := by
  unfold SqlServer.send at hstep
  split at hstep <;> try cases hstep
  case h_1 commit hphase =>
    split at hstep <;> cases hstep
    · exact h.giveUp t (.inl (by rw [hphase]; rfl)) rfl
    · exact h.send t commit (by rw [hphase]; rfl) rfl
  case h_2 hphase =>
    split at hstep <;> cases hstep
    case h_1 refusal' _ =>
      refine h.giveUp t (.inl (by rw [hphase]; rfl)) ?_
      cases refusal' <;> rfl
    case h_2 => exact h.send t false (by rw [hphase]; rfl) rfl

theorem Inv.answer (hstep : answer s t refusal = some s') : Inv s' := by
  unfold SqlServer.answer at hstep
  cases refusal with (split at hstep <;> try cases hstep)
  | none => next hphase => exact h.acknowledge t _ (by rw [hphase]; rfl) rfl
  | some refusal =>
    next hphase =>
      refine h.giveUp t (.inr (by rw [hphase]; rfl)) ?_
      cases refusal <;> rfl

/-- A failure is recorded and returned by the request that has it to record. -/
theorem Inv.recordFailure (t : T) (failure : Failure) (client : Bool)
    (hrole : (s.phase t).role = failure.outcome.role) :
    Inv ({ s.recorded failure with client := client }.return t (.failure failure)) ∧
      Inv ({ s.recorded failure with client := client }.leave t) := by
  by_cases hunknown : failure.outcome = .unknown
  · have hrecorded := (h.recordUnknown hunknown).aside s.clock s.lastActivity s.holder client
    refine ⟨hrecorded.return t ?_, hrecorded.leave t⟩
    rw [show (Report.failure failure).outcome = _ from hunknown]
    exact acknowledged_unknown _
  · have hknown : (s.phase t).role = .known failure.outcome := by
      cases houtcome : failure.outcome <;> simp_all [Outcome.role]
    refine ⟨h.recordKnown t hknown (.inr rfl) ?_, h.recordKnown t hknown (.inr rfl) fun _ => .inl⟩
    exact forall_mem_append.mpr ⟨fun _ => .inl, forall_mem_singleton.mpr (.inr rfl)⟩

theorem Inv.record (hstep : record s t = some s') : Inv s' := by
  unfold SqlServer.record at hstep
  split at hstep <;> try cases hstep
  case h_1 caller failure hphase =>
    have hboth := h.recordFailure t failure false (by rw [hphase]; rfl)
    cases caller with cases hstep
    | execute | finish => exact hboth.1
    | disconnect => exact hboth.2
  case h_2 commit hphase =>
    exact (h.recordUnknown rfl).stay t (by simp [recorded, hphase])
  case h_3 commit hphase =>
    exact h.recordKnown t (by rw [hphase]; rfl) (.inl rfl) fun _ => .inl
  case h_4 commit refusal hphase => exact h.stay t (by rw [hphase]; rfl)
  case h_5 commit hphase =>
    refine h.recordKnown t (by rw [hphase]; rfl) (.inr rfl) ?_
    exact forall_mem_append.mpr ⟨fun _ => .inl, forall_mem_singleton.mpr (.inr rfl)⟩
  case h_6 commit refusal hphase =>
    exact (h.recordFailure t (finishFailure commit refusal) false (by rw [hphase]; rfl)).1
  case h_7 busy hphase =>
    refine (h.recordUnknown rfl).stay t ?_
    cases busy <;> simp [recorded, hphase]
  case h_8 hphase =>
    exact (h.recordUnknown rfl).stay t (by simp [recorded, hphase])
  case h_9 failure hphase =>
    exact (h.recordFailure t failure s.client (by rw [hphase]; rfl)).2
  case h_10 hphase =>
    refine (h.recordUnknown rfl).enter t ?_ trivial
    constructor <;> simp [holds]

theorem Inv.drop (t : T)
    (hdrop : afterDrop (s.phase t) = some p) : Inv ((s.leave t).enter t p) := by
  obtain ⟨hcovers, hfits⟩ := covers_afterDrop (h.fits t) hdrop
  refine h.quiet t p ?_ ⟨rfl, rfl, rfl, rfl, rfl, h.reports⟩ hcovers hfits
  simp [State.leave]

omit h

theorem Phase.rollsBack_of_role (h : p.role = .early) : p.RollsBack := by
  unfold role at h
  split at h <;> simp_all [Phase.RollsBack]
  all_goals
    unfold Outcome.role at h
    split at h <;> cases h

variable {isConnectionError : Text → Bool}

/-- **Every unclaimed step keeps the invariant.** -/
theorem Inv.step {a : Action T} (h : Inv s)
    (hunclaimed : Unclaimed s a) (hstep : step isConnectionError s a = some s') : Inv s' := by
  cases a with (simp only [SqlServer.step] at hstep; try split at hstep <;> try cases hstep)
  | tick elapsed =>
    cases hstep
    exact h.aside _ s.lastActivity s.holder s.client
  | cancel =>
    cases hstep
    refine { toHonest := ⟨h.ends, h.reports, h.orderly⟩, opened := h.opened, pending := h.pending
             fits := fun t => ?_
             apart := fun t u htu => (h.apart t u htu).mono ⟨id, fun _ => rfl⟩ }
    exact (h.fits t).mono rfl (fun _ => rfl) id (fun _ => .inr) id fun _ => id
  | forget =>
    cases hstep
    have hnone : Unsettled { s with ends := none } := by rintro _ ⟨⟩
    refine { toHonest := ⟨by simp, h.reports, h.orderly⟩
             opened := fun hs => ⟨hnone, (h.opened hs).2⟩
             pending := h.pending, fits := fun t => ?_
             apart := fun t u htu => (h.apart t u htu).mono ⟨id, id⟩ }
    exact (h.fits t).mono rfl id id (fun failure hf => .inl (hnone failure hf)) id fun _ => id
  | execute t contextChanged controlConflict => exact h.execute t contextChanged controlConflict
  | lock t => exact h.locked hstep
  | remove t => exact h.remove hstep
  | readOnly t error =>
    -- the connection lets writes through, or the request fails
    first
      | next hphase =>
        have hfits := h.fits t
        rw [hphase] at hfits
        refine h.enter t ?_ ⟨hfits.1, hfits.2.2⟩
        rw [hphase]
        constructor <;> simp [holds]
      | next hphase =>
        exact h.free t (by rw [hphase]; rfl) rfl (acknowledged_unknown s.wire)
  | sendSql t =>
    first
      | next hphase _ _ => exact h.userSql (h.fitsAt (congrArg role hphase)).2.2 id
      | next hphase _ _ => exact h.startCall t hphase
  | callAgent => next hpending => exact h.userSql (h.pending hpending).2 (by simp)
  | ran t error tokenCancelled =>
    first
      | next hphase hidle =>
        have hfits := h.fits t
        rw [hphase] at hfits
        refine h.enter t ?_ ⟨hfits.1, hidle, hfits.2⟩
        rw [hphase]
        constructor <;> simp [holds]
      | next error hphase hidle =>
        have hfits := h.fits t
        rw [hphase] at hfits
        generalize hinterrupted :
          (tokenCancelled || s.cancelled || interrupts isConnectionError error) = interrupted
        cases interrupted with
        | true =>
          refine h.enter t ?_ ⟨hfits.1, hidle, hfits.2⟩
          rw [hphase]
          constructor <;> simp [holds]
        | false =>
          -- the lifecycle is current, so no disconnect has taken the session
          have hcurrent : s.cancelled = false := by simp_all
          have hbusy : s.session = some true := by
            rcases hfits.1 with hs | ⟨-, hc⟩
            · exact hs
            · simp [hcurrent] at hc
          refine h.enter t ?_ ⟨hbusy, hidle⟩
          rw [hphase]
          constructor <;> simp [holds, hcurrent]
  | settle t =>
    next hphase hsome =>
      exact h.free t (by rw [hphase]; rfl) (by simp [hsome]) (acknowledged_unknown s.wire)
  | clean t refusal => exact h.clean hstep
  | send t refusal => exact h.sends hstep
  | answer t refusal => exact h.answer hstep
  | record t => exact h.record hstep
  | finish t commit => exact h.finish t commit
  | disconnect t =>
    next busy hphase hsome =>
      split at hstep <;> cases hstep
      next hcancelled =>
        cases busy with
        | false => exact h.claim t none hsome (h.ender_of_idle hsome) (by simp)
        | true =>
          refine h.disconnectBusy t hsome hcancelled fun u hu => ?_
          have hrolls := hunclaimed u
          rw [rollsBack_of_role hu] at hrolls
          cases hrolls
  | watch t =>
    next hphase hsome =>
      split at hstep <;> cases hstep
      exact h.claim t none hsome (h.ender_of_idle hsome) (by simp)
  | drop t =>
    obtain ⟨p, hdrop, rfl⟩ := Option.map_eq_some_iff.mp hstep
    exact h.drop t hdrop

/-- A request records over a known outcome only the same one. -/
theorem Inv.record_keeps (h : Inv s)
    (hstep : SqlServer.record s t = some s') (hends : s.ends = some failure)
    (hknown : failure.outcome ≠ .unknown) :
    ∀ failure' ∈ s'.ends, failure'.outcome = failure.outcome := by
  have hsettled : ¬ Unsettled s := fun hunsettled => hknown (hunsettled failure hends)
  have hfits := h.fits t
  -- what a request has to record that knows the outcome, or does not
  have hrecorded {outcome : Outcome} (hrole : (s.phase t).role = outcome.role) :
      outcome = failure.outcome := by
    rw [hrole] at hfits
    cases outcome with
    | unknown => exact absurd hfits.2 hsettled
    | committed | rolledBack => exact ((hfits.2.2.2 failure hends).resolve_left hknown).symm
  unfold SqlServer.record at hstep
  split at hstep <;> try cases hstep
  case h_1 caller failure' hphase =>
    have heq : failure'.outcome = failure.outcome := hrecorded (by rw [hphase]; rfl)
    cases caller <;> cases hstep <;> rintro _ ⟨⟩ <;> exact heq
  case h_2 _ hphase | h_8 hphase =>
    rw [hphase] at hfits
    exact absurd hfits.2.2.1 hsettled
  case h_3 commit hphase | h_5 commit hphase =>
    rintro _ ⟨⟩
    exact hrecorded (by rw [hphase]; cases commit <;> rfl)
  case h_4 =>
    rintro _ hsame
    rw [Option.some.inj (hends.symm.trans hsame)]
  case h_6 _ _ hphase | h_10 hphase =>
    rw [hphase] at hfits
    exact absurd hfits.2 hsettled
  case h_7 busy hphase =>
    rw [hphase] at hfits
    cases busy with
    | false => exact absurd hfits.2.2.1 hsettled
    | true => exact absurd hfits.2 hsettled
  case h_9 failure' hphase =>
    rintro _ ⟨⟩
    exact hrecorded (by rw [hphase]; rfl)

/-- Only a request that records and the retention of records touch what is recorded. -/
theorem step_ends {a : Action T}
    (hstep : step isConnectionError s a = some s') (hrecord : ∀ t, a ≠ .record t)
    (hforget : a ≠ .forget) : s'.ends = s.ends := by
  cases a with (simp only [step] at hstep; try split at hstep <;> try cases hstep)
  | record t => exact absurd rfl (hrecord t)
  | forget => exact absurd rfl hforget
  | execute t contextChanged controlConflict =>
    unfold execute
    split
    · rfl
    · split <;> rfl
  | finish t commit =>
    unfold finish
    split <;> rfl
  | lock t | remove t | clean t refusal | send t refusal =>
    -- the session and the phase change, and nothing that is recorded
    simp only [locked, remove, clean, send] at hstep
    repeat' split at hstep
    all_goals cases hstep
    all_goals rfl
  | answer t refusal =>
    unfold answer at hstep
    split at hstep <;> cases hstep <;> cases refusal <;> rfl
  | disconnect t | watch t =>
    split at hstep <;> cases hstep
    rfl
  | drop t =>
    obtain ⟨p, -, rfl⟩ := Option.map_eq_some_iff.mp hstep
    rfl
  | tick elapsed | cancel =>
    cases hstep
    rfl
  | _ => rfl

/-- No step from a state of an unclaimed run replaces a known outcome. -/
theorem Inv.keeps (h : Inv s) (a : Action T) : Keeps isConnectionError s a := by
  intro s' hstep failure hends hknown
  by_cases hrecord : ∃ t, a = .record t
  · obtain ⟨t, rfl⟩ := hrecord
    exact h.record_keeps hstep hends hknown
  by_cases hforget : a = .forget
  · subst hforget
    cases hstep
    rintro _ ⟨⟩
  · have hsame := step_ends hstep (fun t ht => hrecord ⟨t, ht⟩) hforget
    intro failure' hends'
    rw [hsame, Option.mem_def.mp hends] at hends'
    cases hends'
    rfl

/-- **The outcome of a manual transaction is never misreported**, along every run in which no
disconnect takes a busy session whose request is about to roll the transaction back: what is
recorded and reported has been acknowledged, no known outcome is replaced, at most one end of the
transaction is sent and no user SQL after it. -/
theorem honest_of_unclaimed (isConnectionError : Text → Bool) (transport : Transport)
    (idleTimeout : Nat) (actions : List (Action T)) (s : State T)
    (hunclaimed : Along (step isConnectionError) Unclaimed (init transport idleTimeout)
      actions)
    (hrun : run (step isConnectionError) (init transport idleTimeout) actions = some s) :
    Honest s ∧
      Along (step isConnectionError) (Keeps isConnectionError) (init transport idleTimeout)
        actions := by
  have hinit : Inv (init transport idleTimeout : State T) := Inv.init transport idleTimeout
  constructor
  · have hinv : Inv s :=
      Along.run_invariant (fun s a s' hs hc hnext => hs.step hc hnext) actions _ s hinit hunclaimed
        hrun
    exact hinv.toHonest
  · refine Along.of_invariant (I := Inv) ?_ ?_ actions _ hinit hunclaimed
    · intro s a s' hinv hc hnext
      exact hinv.step hc hnext
    · intro s a hinv _
      exact hinv.keeps a

/-- User SQL is run and committed while another request asks and the connection is closed. -/
def executeThenCommit : List (Action Nat) :=
  [.execute 0 false false, .lock 0, .readOnly 0 none, .sendSql 0, .finish 1 true, .ran 0 none false,
    .settle 0, .finish 1 true, .lock 1, .record 1, .send 1 none, .cancel, .answer 1 none, .record 1,
    .execute 0 false false, .record 1]

theorem honest_executeThenCommit :
    ∃ s, run (step fun _ => false) (init .native 60) executeThenCommit = some s ∧
      s.ends = some (ended true) ∧ Honest s ∧
      Along (step fun _ => false) (Keeps fun _ => false) (init .native 60)
        executeThenCommit := by
  refine ⟨_, rfl, rfl, honest_of_unclaimed (fun _ => false) .native 60 executeThenCommit _ ?_ rfl⟩
  simp [executeThenCommit, Along, Unclaimed]

/-- A request has marked the session busy when its connection is closed. It rolls back and records
that, and the disconnect discards the session it took as busy. -/
def disconnectWhileEntering : List (Action Nat) :=
  [.execute 0 false false, .cancel, .disconnect 1, .record 1, .lock 0, .remove 0, .clean 0 none,
    .answer 0 none, .record 0, .lock 1, .clean 1 none]

theorem not_keeps_disconnectWhileEntering :
    ¬ Along (step fun _ => false) (Keeps fun _ => false) (init .native 60)
      (disconnectWhileEntering ++ [.record 1]) := by
  intro hkeeps
  -- the record of the disconnect replaces the acknowledged rollback
  have hlast := hkeeps.last rfl
  have hsame := hlast _ rfl _ rfl (by decide) _ rfl
  cases hsame

end Dbx.SqlServer
