import SyntheticsOperator.Proofs.Tokens

/-!
# Pings while the token index is loading

A fresh receiver learns the tokens one message at a time.  It is ready from the
first Heartbeat message on, not from the last one of the broadcast it asked for, so
the answer to a ping whose token is still to come depends on whether any Heartbeat
message came before it.
-/

namespace SyntheticsOperator.Proofs.Loading

open SyntheticsOperator.Api
open SyntheticsOperator.Heartbeat
open SyntheticsOperator.Proofs.Tokens
open SyntheticsOperator.Results (SpecUpdate HeartbeatPing)
open SyntheticsOperator.Support
open SyntheticsOperator.Support.Histories

/-! ## When a token is in the index -/

def Installs (token : GoString) (events : List Event) : Prop :=
  ∃ msg, Event.spec msg ∈ events ∧ msg.kind = .heartbeat ∧ installedToken msg = some token

/-- A message took the token away from a Heartbeat that held it, and no message
installed it since. -/
def TakenAway (token : GoString) (events : List Event) : Prop :=
  ∃ before msg owner after, events = before ++ .spec msg :: after ∧
    msg.key = ⟨.heartbeat, owner⟩ ∧ liveToken owner before = some token ∧
    installedToken msg ≠ some token ∧ ¬ Installs token after

theorem installs_append {token : GoString} {before after : List Event} :
    Installs token (before ++ after) ↔ Installs token before ∨ Installs token after := by
  constructor
  · rintro ⟨msg, hmsg, hinstalls⟩
    rcases List.mem_append.mp hmsg with hmem | hmem
    · exact .inl ⟨msg, hmem, hinstalls⟩
    · exact .inr ⟨msg, hmem, hinstalls⟩
  · rintro (⟨msg, hmem, hinstalls⟩ | ⟨msg, hmem, hinstalls⟩)
    · exact ⟨msg, List.mem_append_left _ hmem, hinstalls⟩
    · exact ⟨msg, List.mem_append_right _ hmem, hinstalls⟩

theorem installs_spec {token : GoString} {msg : SpecUpdate} {owner : NamespacedName}
    (hkey : msg.key = ⟨.heartbeat, owner⟩) :
    Installs token [.spec msg] ↔ installedToken msg = some token := by
  have hkind : msg.kind = .heartbeat := congrArg CrKey.kind hkey
  constructor
  · rintro ⟨msg', hmem, -, hinstalled⟩
    cases List.mem_singleton.mp hmem
    exact hinstalled
  · intro hinstalled
    exact ⟨msg, List.mem_singleton_self _, hkind, hinstalled⟩

theorem not_installs_other {token : GoString} {event : Event}
    (hnone : ∀ name, specOf name event = none) : ¬ Installs token [event] := by
  rintro ⟨msg, hmem, hkind, -⟩
  obtain rfl : Event.spec msg = event := List.mem_singleton.mp hmem
  have hself := hnone ⟨msg.ns, msg.name⟩
  simp [specOf, SpecUpdate.key, hkind] at hself

/-- The last event took the token away, or it was taken away before and is not
installed by the last event. -/
theorem takenAway_snoc {token : GoString} {events : List Event} {event : Event} :
    TakenAway token (events ++ [event]) ↔
      (∃ msg owner, event = .spec msg ∧ msg.key = ⟨.heartbeat, owner⟩ ∧
        liveToken owner events = some token ∧ installedToken msg ≠ some token) ∨
      (TakenAway token events ∧ ¬ Installs token [event]) := by
  constructor
  · rintro ⟨before, msg, owner, after, heq, hkey, hlive, hinstalled, hafter⟩
    rcases List.eq_nil_or_concat after with rfl | ⟨after, last, rfl⟩
    · obtain ⟨rfl, hlast⟩ := List.append_inj' heq rfl
      cases hlast
      exact .inl ⟨msg, owner, rfl, hkey, hlive, hinstalled⟩
    · rw [List.concat_eq_append] at heq hafter
      rw [← List.cons_append, ← List.append_assoc] at heq
      obtain ⟨hevents, hlast⟩ := List.append_inj' heq rfl
      cases hlast
      rw [installs_append, not_or] at hafter
      exact .inr ⟨⟨before, msg, owner, after, hevents, hkey, hlive, hinstalled, hafter.1⟩,
        hafter.2⟩
  · rintro (⟨msg, owner, rfl, hkey, hlive, hinstalled⟩ |
      ⟨⟨before, msg, owner, after, rfl, hkey, hlive, hinstalled, hafter⟩, hevent⟩)
    · refine ⟨events, msg, owner, [], rfl, hkey, hlive, hinstalled, ?_⟩
      rintro ⟨msg', hmem, -⟩
      cases hmem
    · refine ⟨before, msg, owner, after ++ [event], by simp, hkey, hlive, hinstalled, ?_⟩
      rw [installs_append]
      exact not_or.mpr ⟨hafter, hevent⟩

/-- A token is missing from the index exactly when no message installed it, or it
was taken away since. -/
theorem lookup_eq_none_iff (events : List Event) (token : GoString) :
    (Receiver.run events).lookup token = none ↔
      ¬ Installs token events ∨ TakenAway token events := by
  induction events using List.reverseRecOn with
  | nil =>
      refine iff_of_true rfl (.inl ?_)
      rintro ⟨msg, hmem, -⟩
      cases hmem
  | append_singleton events event ih =>
      rw [Receiver.lookup] at ih ⊢
      rw [installs_append, takenAway_snoc]
      rcases event_cases event with ⟨msg, owner, rfl, hkey⟩ | hnone
      · rw [identities_run_snoc_spec events hkey, installs_spec hkey]
        have howner : ∀ msg' owner', Event.spec msg = .spec msg' →
            msg'.key = ⟨.heartbeat, owner'⟩ → owner' = owner := by
          rintro _ owner' ⟨⟩ hkey'
          exact congrArg CrKey.name (hkey'.symm.trans hkey)
        by_cases hinstalled : installedToken msg = some token
        · rw [if_pos hinstalled]
          refine iff_of_false (by simp) ?_
          rintro (hnot | ⟨msg', _, heq, -, -, hne⟩ | ⟨-, hne⟩)
          · exact hnot (.inr hinstalled)
          · cases heq
            exact hne hinstalled
          · exact hne hinstalled
        · rw [if_neg hinstalled]
          by_cases hlive : liveToken owner events = some token
          · rw [if_pos hlive]
            exact iff_of_true rfl (.inr (.inl ⟨msg, owner, rfl, hkey, hlive, hinstalled⟩))
          · -- the message neither installs the token nor takes it away
            rw [if_neg hlive, ih]
            have hno : ¬ ∃ msg' owner', Event.spec msg = .spec msg' ∧
                msg'.key = ⟨.heartbeat, owner'⟩ ∧ liveToken owner' events = some token ∧
                installedToken msg' ≠ some token := by
              rintro ⟨msg', owner', heq, hkey', hlive', -⟩
              rw [howner msg' owner' heq hkey'] at hlive'
              exact hlive hlive'
            simp only [hinstalled, or_false, hno, false_or, not_false_eq_true, and_true]
      · rw [identities_run_snoc_other events hnone, ih]
        have hno : ¬ ∃ msg' owner', event = .spec msg' ∧ msg'.key = ⟨.heartbeat, owner'⟩ ∧
            liveToken owner' events = some token ∧ installedToken msg' ≠ some token := by
          rintro ⟨msg', owner', rfl, hkey', -⟩
          have hsome : specOf owner' (.spec msg') = some msg' := if_pos hkey'
          rw [hnone] at hsome
          cases hsome
        simp only [not_installs_other hnone, or_false, hno, false_or, not_false_eq_true, and_true]

theorem installs_of_liveToken {name : NamespacedName} {events : List Event} {token : GoString}
    (h : liveToken name events = some token) : Installs token events := by
  obtain ⟨msg, hlast, hinstalled⟩ := Option.bind_eq_some_iff.mp h
  obtain ⟨event, hmem, hspec⟩ := exists_of_lastSome_eq_some hlast
  cases event with
  | warmup => cases hspec
  | spec msg' =>
      simp only [specOf] at hspec
      split at hspec
      · rename_i hkey
        cases hspec
        exact ⟨msg, hmem, congrArg CrKey.kind hkey, hinstalled⟩
      · cases hspec

/-! ## When the receiver is ready -/

/-- Before the timer fires, the receiver is ready from the first Heartbeat message
on. -/
theorem warm_run_iff (events : List Event) (htimer : Event.warmup ∉ events) :
    (Receiver.run events).warm = true ↔
      ∃ msg, Event.spec msg ∈ events ∧ msg.kind = .heartbeat := by
  induction events using List.reverseRecOn with
  | nil => simp [Receiver.run, Receiver.empty]
  | append_singleton events event ih =>
      have hbefore : Event.warmup ∉ events := fun h => htimer (List.mem_append_left _ h)
      rw [Receiver.run_snoc]
      cases event with
      | warmup => exact absurd (List.mem_append_right _ (List.mem_singleton_self _)) htimer
      | spec msg =>
          by_cases hkind : msg.kind = .heartbeat
          · have hkey : msg.key = ⟨.heartbeat, ⟨msg.ns, msg.name⟩⟩ := by
              rw [SpecUpdate.key, hkind]
            refine iff_of_true ?_ ⟨msg, by simp, hkind⟩
            rw [Receiver.handle, onSpec_warm _ hkey]
          · rw [Receiver.handle, Receiver.onSpec, if_pos hkind, ih hbefore]
            constructor
            · rintro ⟨msg', hmem, hkind'⟩
              exact ⟨msg', List.mem_append_left _ hmem, hkind'⟩
            · rintro ⟨msg', hmem, hkind'⟩
              rcases List.mem_append.mp hmem with hmem | hmem
              · exact ⟨msg', hmem, hkind'⟩
              · cases List.mem_singleton.mp hmem
                exact absurd hkind' hkind

/-! ## The answer to a ping -/

/-- What a ping with a well-formed path is answered, by what the two reads of the
index find. -/
theorem servePing_answer (r : Receiver) (ready : Bool) (now : Time)
    (publish : HeartbeatPing → Bool) {req : Request} {token : GoString} {outcome : Outcome}
    (hmethod : req.method = "GET" ∨ req.method = "HEAD" ∨ req.method = "POST")
    (hpath : parsePath req.path = some (token, outcome)) :
    (r.lookup token ≠ none ∧
      ((servePing r ready now publish req).response.status = 200 ∨
        (servePing r ready now publish req).response.status = 500)) ∨
    (r.lookup token = none ∧ ready = true ∧
      (servePing r ready now publish req).response.status = 404) ∨
    (r.lookup token = none ∧ ready = false ∧
      (servePing r ready now publish req).response.status = 503) := by
  rcases hlookup : r.lookup token with _ | name
  · rw [servePing_unknown hmethod hpath hlookup]
    cases ready with
    | true => exact .inr (.inl ⟨rfl, rfl, rfl⟩)
    | false => exact .inr (.inr ⟨rfl, rfl, rfl⟩)
  · rw [servePing_known hmethod hpath hlookup]
    refine .inl ⟨by simp, ?_⟩
    cases hpublish : publish (newPing name now outcome req) with
    | true => simp [record, hpublish]
    | false => simp [record, hpublish]

def Carried (name : NamespacedName) (token : GoString) (events : List Event) : Prop :=
  ∃ msg, Event.spec msg ∈ events ∧ msg.key = ⟨.heartbeat, name⟩ ∧
    installedToken msg = some token

section Answers

variable (events : List Event) {later : List Event} {token : GoString} {outcome : Outcome}
  {req : Request}

/-- The Heartbeat that holds the token is found unless a message took the token away. -/
theorem known_answer_iff (ready : Bool) (now : Time) (publish : HeartbeatPing → Bool)
    (hmethod : req.method = "GET" ∨ req.method = "HEAD" ∨ req.method = "POST")
    (hpath : parsePath req.path = some (token, outcome)) (name : NamespacedName)
    (hlive : liveToken name events = some token) :
    ((servePing (Receiver.run events) ready now publish req).response.status = 200 ∨
        (servePing (Receiver.run events) ready now publish req).response.status = 500) ↔
      ¬ TakenAway token events := by
  have hnone : (Receiver.run events).lookup token = none ↔ TakenAway token events := by
    rw [lookup_eq_none_iff]
    exact or_iff_right (not_not.mpr (installs_of_liveToken hlive))
  rw [← hnone]
  rcases servePing_answer (Receiver.run events) ready now publish hmethod hpath with
    ⟨hlookup, hstatus⟩ | ⟨hlookup, -, hstatus⟩ | ⟨hlookup, -, hstatus⟩
  · exact iff_of_true hstatus hlookup
  · exact iff_of_false (by omega) (not_not.mpr hlookup)
  · exact iff_of_false (by omega) (not_not.mpr hlookup)

/-- Before the timer, the answer is 503 as long as no Heartbeat message was processed. -/
theorem unknown_answer_iff (htimer : Event.warmup ∉ events ++ later) (now : Time)
    (publish : HeartbeatPing → Bool)
    (hmethod : req.method = "GET" ∨ req.method = "HEAD" ∨ req.method = "POST")
    (hpath : parsePath req.path = some (token, outcome)) :
    (servePing (Receiver.run events) (Receiver.run (events ++ later)).warm now publish
        req).response.status = 503 ↔
      ∀ msg, Event.spec msg ∈ events ++ later → msg.kind ≠ .heartbeat := by
  have hanswer := servePing_answer (Receiver.run events) (Receiver.run (events ++ later)).warm
    now publish hmethod hpath
  have hwarm := warm_run_iff (events ++ later) htimer
  constructor
  · intro hstatus msg hmem hkind
    have hready := hwarm.mpr ⟨msg, hmem, hkind⟩
    rcases hanswer with ⟨-, h⟩ | ⟨-, -, h⟩ | ⟨-, hnot, -⟩
    · omega
    · omega
    · rw [hready] at hnot
      cases hnot
  · intro hno
    have hready : (Receiver.run (events ++ later)).warm ≠ true := by
      intro hready
      obtain ⟨msg, hmem, hkind⟩ := hwarm.mp hready
      exact hno msg hmem hkind
    have hlookup : (Receiver.run events).lookup token = none := by
      rw [lookup_eq_none_iff]
      refine .inl ?_
      rintro ⟨msg, hmem, hkind, -⟩
      exact hno msg (List.mem_append_left _ hmem) hkind
    rcases hanswer with ⟨h, -⟩ | ⟨-, h, -⟩ | ⟨-, -, h⟩
    · exact absurd hlookup h
    · exact absurd h hready
    · exact h

end Answers

/-- For every run before the timer fires and every ping with an acceptable token:
`events` are processed before its lookup, `later` between that and the call of `Ready`,
`rest` after it.  A Heartbeat whose last processed spec carries the token is answered
200 or 500, and one whose spec is still to come 503, exactly when in the first case no
message took the token away and in the second no Heartbeat message came at all. -/
theorem loading_answer_iff (events later rest : List Event)
    (htimer : Event.warmup ∉ events ++ later) (name : NamespacedName) (now : Time)
    (publish : HeartbeatPing → Bool) (req : Request) (token : GoString) (outcome : Outcome)
    (hmethod : req.method = "GET" ∨ req.method = "HEAD" ∨ req.method = "POST")
    (hpath : parsePath req.path = some (token, outcome)) :
    ((liveToken name events = some token →
        (servePing (Receiver.run events) (Receiver.run (events ++ later)).warm now publish
          req).response.status = 200 ∨
        (servePing (Receiver.run events) (Receiver.run (events ++ later)).warm now publish
          req).response.status = 500) ∧
      (liveToken name events ≠ some token → Carried name token (later ++ rest) →
        (servePing (Receiver.run events) (Receiver.run (events ++ later)).warm now publish
          req).response.status = 503)) ↔
    ((liveToken name events = some token → ¬ TakenAway token events) ∧
      (liveToken name events ≠ some token → Carried name token (later ++ rest) →
        ∀ msg, Event.spec msg ∈ events ++ later → msg.kind ≠ .heartbeat)) := by
  have hknown := known_answer_iff events (Receiver.run (events ++ later)).warm now publish hmethod
    hpath name
  have hunknown := unknown_answer_iff events htimer now publish hmethod hpath
  constructor
  · rintro ⟨hfirst, hsecond⟩
    exact ⟨fun hlive => (hknown hlive).mp (hfirst hlive),
      fun hbefore hcarried => hunknown.mp (hsecond hbefore hcarried)⟩
  · rintro ⟨hfirst, hsecond⟩
    exact ⟨fun hlive => (hknown hlive).mpr (hfirst hlive),
      fun hbefore hcarried => hunknown.mpr (hsecond hbefore hcarried)⟩

def twoSpecs : List SpecUpdate :=
  [tokenSpec "first" "first-token-00001", tokenSpec "second" "second-token-0001"]

theorem loading_answer_first :
    (servePing (Receiver.run []) (Receiver.run []).warm ⟨0⟩ (fun _ => true)
      (getRequest "/first-token-00001")).response.status = 503 ∧
    ¬ TakenAway (GoString.lit "first-token-00001") ((twoSpecs.take 1).map .spec) := by
  have hbefore := loading_answer_iff [] [] (twoSpecs.map .spec) (by simp)
    ⟨"default", "first"⟩ ⟨0⟩ (fun _ => true) (getRequest "/first-token-00001")
    (GoString.lit "first-token-00001") ⟨false, 0⟩ (.inl rfl) (by decide +kernel)
  have hafter := loading_answer_iff ((twoSpecs.take 1).map .spec) []
    ((twoSpecs.drop 1).map .spec) (by simp [twoSpecs]) ⟨"default", "first"⟩ ⟨0⟩ (fun _ => true)
    (getRequest "/first-token-00001") (GoString.lit "first-token-00001") ⟨false, 0⟩
    (.inl rfl) (by decide +kernel)
  have hlive : liveToken ⟨"default", "first"⟩ ((twoSpecs.take 1).map .spec) =
      some (GoString.lit "first-token-00001") := by
    decide +kernel
  have hcoming : Carried ⟨"default", "first"⟩ (GoString.lit "first-token-00001")
      ([] ++ twoSpecs.map .spec) :=
    ⟨tokenSpec "first" "first-token-00001", .head _, rfl, by decide +kernel⟩
  constructor
  · refine (hbefore.mpr ⟨?_, ?_⟩).2 (by decide +kernel) hcoming
    · intro h
      cases h
    · intro _ _ msg hmem
      cases hmem
  · exact (hafter.mp ⟨fun _ => .inl (by decide +kernel), fun h => absurd hlive h⟩).1 hlive

/-- After the first message of the broadcast, a ping for the second Heartbeat is
answered 404. -/
theorem second_token_not_found :
    (servePing (Receiver.run ((twoSpecs.take 1).map .spec))
      (Receiver.run ((twoSpecs.take 1).map .spec)).warm ⟨0⟩ (fun _ => true)
      (getRequest "/second-token-0001")).response.status = 404 := by
  decide +kernel

end SyntheticsOperator.Proofs.Loading
