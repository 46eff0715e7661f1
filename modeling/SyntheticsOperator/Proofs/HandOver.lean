import SyntheticsOperator.Images.TestSidecar

/-!
# From the runner to the sidecar

The sidecar takes the presence of the file for its completeness.  It publishes the payload
exactly when no read falls between the creation of the file and its last byte.
-/

namespace SyntheticsOperator.Proofs.HandOver

open SyntheticsOperator.Images
open SyntheticsOperator.Results (TestResult)
open SyntheticsOperator.Support

/-- The bytes that these steps write. -/
def written : List Step → Nat
  | [] => 0
  | .append n :: steps => n + written steps
  | _ :: steps => written steps

theorem written_append (steps steps' : List Step) :
    written (steps ++ steps') = written steps + written steps' := by
  induction steps with
  | nil => simp [written]
  | cons s steps ih =>
      cases s <;> simp only [List.cons_append, written, ih, Nat.add_assoc]

/-- Every read comes before the file is created or after all its bytes are written. -/
def Whole (payload : GoString) (history : List Step) : Prop :=
  ∀ before, before ++ [.readFile] <+: history → .create ∈ before →
    written before = payload.length

/-- The sidecar has returned no error and has published the payload, once. -/
def Delivered (payload : GoString) (pod : Pod) : Prop :=
  pod.sidecar = .returned none ∧ pod.published = [payload]

variable {unmarshal : GoString → Except String TestResult} {payload : GoString}
variable {history : List Step} {pod pod' : Pod} {s : Step}

theorem whole_snoc_readFile :
    Whole payload (history ++ [.readFile]) ↔
      Whole payload history ∧ (.create ∈ history → written history = payload.length) := by
  simp only [Whole, List.prefix_concat_iff]
  constructor
  · intro h
    exact ⟨fun before hbefore => h before (.inr hbefore), h history (.inl rfl)⟩
  · rintro ⟨hearlier, hlast⟩ before (hbefore | hbefore)
    · rw [List.append_cancel_right hbefore]
      exact hlast
    · exact hearlier before hbefore

theorem whole_snoc_of_ne (hs : s ≠ .readFile) :
    Whole payload (history ++ [s]) ↔ Whole payload history := by
  simp only [Whole, List.prefix_concat_iff]
  constructor
  · intro h before hbefore
    exact h before (.inr hbefore)
  · rintro h before (hbefore | hbefore)
    · exact absurd (List.singleton_inj.mp (List.append_inj_right' hbefore rfl)).symm hs
    · exact h before hbefore

theorem whole_append_of_not_mem {more : List Step} (hmore : .readFile ∉ more) :
    Whole payload (history ++ more) ↔ Whole payload history := by
  induction more using List.reverseRecOn with
  | nil => rw [List.append_nil]
  | append_singleton more s ih =>
      rw [List.mem_append, not_or] at hmore
      rw [← List.append_assoc, whole_snoc_of_ne fun hs => hmore.2 (by simp [hs]), ih hmore.1]

theorem whole_nil : Whole payload [] := by
  intro before hbefore
  simp at hbefore

/-! ## The file -/

/-- What is in the file, at each stage of the runner. -/
def FileInv (payload : GoString) (history : List Step) (pod : Pod) : Prop :=
  match pod.runner with
  | .running => pod.file = none ∧ .create ∉ history ∧ written history = 0
  | .writing rest => .create ∈ history ∧
      ∃ data, pod.file = some data ∧ payload = data ++ rest ∧ written history = data.length
  | .done => .create ∈ history ∧ pod.file = some payload ∧ written history = payload.length

theorem FileInv.write (h : FileInv payload history pod) (hrunner : s.ofRunner = true)
    (hwrite : pod.write payload s = some pod') :
    FileInv payload (history ++ [s]) pod' ∧ pod'.sidecar = pod.sidecar ∧
      pod'.published = pod.published := by
  cases hphase : pod.runner with
  | running =>
      simp only [FileInv, hphase] at h
      cases s <;> simp [Pod.write, hphase] at hwrite
      subst hwrite
      simp [FileInv, written_append, written, h.2.2]
  | writing rest =>
      simp only [FileInv, hphase] at h
      obtain ⟨hcreated, data, hfile, hpayload, hwritten⟩ := h
      cases s with
      | append n =>
          simp only [Pod.write, hphase, Option.ite_none_right_eq_some, Option.some.injEq] at hwrite
          obtain ⟨⟨_, hn⟩, rfl⟩ := hwrite
          refine ⟨⟨List.mem_append_left _ hcreated, data ++ rest.take n, ?_, ?_, ?_⟩, rfl, rfl⟩
          · rw [hfile, Option.map_some]
          · rw [List.append_assoc, List.take_append_drop]
            exact hpayload
          · rw [written_append, List.length_append, List.length_take, Nat.min_eq_left hn, hwritten]
            rfl
      | close =>
          cases rest with
          | nil =>
              simp only [Pod.write, hphase, Option.some.injEq] at hwrite
              subst hwrite
              rw [List.append_nil] at hpayload
              refine ⟨⟨List.mem_append_left _ hcreated, ?_, ?_⟩, rfl, rfl⟩
              · rw [hfile, hpayload]
              · rw [written_append, hwritten, hpayload]
                rfl
          | cons => simp [Pod.write, hphase] at hwrite
      | _ => simp [Pod.write, hphase] at hwrite
  | done => cases s <;> simp [Pod.write, hphase] at hwrite

/-- A step of the sidecar leaves the runner and its file as they are. -/
theorem sidecarStep_frame (hstep : pod.sidecarStep unmarshal s = some pod') :
    pod'.runner = pod.runner ∧ pod'.file = pod.file := by
  unfold Pod.sidecarStep at hstep
  grind

theorem FileInv.frame (h : FileInv payload history pod) (hrunner : s.ofRunner = false)
    (hsame : pod'.runner = pod.runner) (hfile : pod'.file = pod.file) :
    FileInv payload (history ++ [s]) pod' := by
  have hcreate : .create ∈ history ++ [s] ↔ .create ∈ history := by
    cases s <;> simp_all [Step.ofRunner]
  have hwritten : written (history ++ [s]) = written history := by
    rw [written_append]
    cases s <;> simp_all [Step.ofRunner, written]
  rw [FileInv, hsame, hfile, hwritten]
  simp only [hcreate]
  exact h

/-- A file that is read is whole exactly when all bytes are written. -/
theorem FileInv.eq_payload_iff {data : GoString} (h : FileInv payload history pod)
    (hfile : pod.file = some data) :
    data = payload ↔ (.create ∈ history → written history = payload.length) := by
  cases hphase : pod.runner with
  | running =>
      simp only [FileInv, hphase, hfile] at h
      cases h.1
  | writing rest =>
      simp only [FileInv, hphase, hfile] at h
      obtain ⟨hcreated, data', hdata, hpayload, hwritten⟩ := h
      obtain rfl : data = data' := Option.some.inj hdata
      rw [hpayload, hwritten, List.length_append]
      constructor
      · intro heq _
        have := congrArg List.length heq
        rw [List.length_append] at this
        omega
      · intro hlength
        have hnil : rest = [] := List.length_eq_zero_iff.mp (by have := hlength hcreated; omega)
        rw [hnil, List.append_nil]
  | done =>
      simp only [FileInv, hphase, hfile] at h
      obtain ⟨_, hdata, hwritten⟩ := h
      exact ⟨fun _ _ => hwritten, fun _ => Option.some.inj hdata⟩

/-! ## The sidecar -/

/-- The sidecar waits for the file. -/
def Waits (pod : Pod) : Prop :=
  pod.published = [] ∧ (pod.sidecar = .connecting ∨ pod.sidecar = .reading ∨
    pod.sidecar = .checking ∨ pod.sidecar = .polling)

/-- The sidecar has read `data`, and what follows from that. -/
def Got (unmarshal : GoString → Except String TestResult) (data : GoString) (pod : Pod) : Prop :=
  match pod.sidecar with
  | .read data' => data' = data ∧ pod.published = []
  | .decoded data' => data' = data ∧ pod.published = []
  | .flushing => pod.published = [data]
  | .returned none => pod.published = [data]
  | .returned (some err) => unmarshal data = .error err ∧ pod.published = []
  | _ => False

/-- An undisturbed step of the sidecar that waits: it reads the file, or goes on waiting. -/
theorem Waits.step (h : Waits pod) (hundisturbed : s.undisturbed = true)
    (hstep : pod.sidecarStep unmarshal s = some pod') :
    (Waits pod' ∧ (s = .readFile → pod.file = none)) ∨
      s = .readFile ∧ ∃ data, pod.file = some data ∧ Got unmarshal data pod' := by
  obtain ⟨hpublished, hsidecar⟩ := h
  unfold Pod.sidecarStep at hstep
  unfold Step.undisturbed at hundisturbed
  rcases hsidecar with hsidecar | hsidecar | hsidecar | hsidecar <;>
    simp only [hsidecar] at hstep <;> grind [Waits, Got]

/-- From then on the data stays the same, and nothing is read again. -/
theorem Got.step {data : GoString} (h : Got unmarshal data pod)
    (hundisturbed : s.undisturbed = true) (hstep : pod.sidecarStep unmarshal s = some pod') :
    Got unmarshal data pod' ∧ s ≠ .readFile := by
  cases hsidecar : pod.sidecar with
  | read data' =>
      simp only [Got, hsidecar] at h
      cases s <;> simp only [Pod.sidecarStep, hsidecar, reduceCtorEq] at hstep
      cases hdecode : unmarshal data' with
      | error err =>
          simp only [hdecode, Option.some.injEq] at hstep
          subst hstep
          exact ⟨⟨h.1 ▸ hdecode, h.2⟩, by simp⟩
      | ok r =>
          simp only [hdecode, Option.some.injEq] at hstep
          subst hstep
          exact ⟨h, by simp⟩
  | decoded data' =>
      simp only [Got, hsidecar] at h
      cases s <;> simp only [Pod.sidecarStep, hsidecar, reduceCtorEq] at hstep
      rename_i err
      cases err with
      | none =>
          simp only [Option.some.injEq] at hstep
          subst hstep
          exact ⟨by simp [Got, h.1, h.2], by simp⟩
      | some => cases hundisturbed
  | flushing =>
      simp only [Got, hsidecar] at h
      cases s <;> simp only [Pod.sidecarStep, hsidecar, reduceCtorEq, Option.some.injEq] at hstep
      rename_i err
      cases err with
      | none =>
          subst hstep
          exact ⟨h, by simp⟩
      | some => cases hundisturbed
  | returned err => cases s <;> simp [Pod.sidecarStep, hsidecar] at hstep
  | _ => simp [Got, hsidecar] at h

/-! ## The two together -/

/-- Until a read finds the file every read was early; after that, the data is the payload
exactly when no read was in between. -/
def Progress (unmarshal : GoString → Except String TestResult) (payload : GoString)
    (history : List Step) (pod : Pod) : Prop :=
  (Waits pod ∧ Whole payload history) ∨
    ∃ data, Got unmarshal data pod ∧ (data = payload ↔ Whole payload history)

theorem Progress.step (hfile : FileInv payload history pod)
    (h : Progress unmarshal payload history pod) (hundisturbed : s.undisturbed = true)
    (hstep : pod.sidecarStep unmarshal s = some pod') :
    Progress unmarshal payload (history ++ [s]) pod' := by
  rcases h with ⟨hwaits, hwhole⟩ | ⟨data, hgot, hiff⟩
  · rcases hwaits.step hundisturbed hstep with ⟨hwaits', hnone⟩ | ⟨rfl, data, hdata, hgot⟩
    · refine .inl ⟨hwaits', ?_⟩
      by_cases hs : s = .readFile
      · subst hs
        refine whole_snoc_readFile.mpr ⟨hwhole, fun hcreated => ?_⟩
        -- there is no file, so it has not been created
        rw [FileInv] at hfile
        split at hfile
        · exact absurd hcreated hfile.2.1
        · obtain ⟨_, data, hdata, _⟩ := hfile
          rw [hnone rfl] at hdata
          cases hdata
        · rw [hnone rfl] at hfile
          cases hfile.2.1
      · exact (whole_snoc_of_ne hs).mpr hwhole
    · refine .inr ⟨data, hgot, ?_⟩
      rw [whole_snoc_readFile, hfile.eq_payload_iff hdata]
      simp only [hwhole, true_and]
  · obtain ⟨hgot', hs⟩ := hgot.step hundisturbed hstep
    exact .inr ⟨data, hgot', by rw [whole_snoc_of_ne hs, hiff]⟩

/-- What holds after every undisturbed interleaving. -/
theorem invariant (hrun : Machine.run (Pod.step unmarshal payload) .init history = some pod)
    (hundisturbed : ∀ s ∈ history, s.undisturbed = true) :
    FileInv payload history pod ∧ Progress unmarshal payload history pod := by
  revert hundisturbed
  refine Machine.run_invariant (I := fun history pod =>
    (∀ s ∈ history, s.undisturbed = true) →
      FileInv payload history pod ∧ Progress unmarshal payload history pod) ?_ ?_ hrun
  · intro _
    exact ⟨⟨rfl, by simp, rfl⟩, .inl ⟨⟨rfl, .inl rfl⟩, whole_nil⟩⟩
  · intro history pod s pod' ih hstep hundisturbed
    obtain ⟨hfile, hprogress⟩ := ih fun s hs => hundisturbed s (List.mem_append_left _ hs)
    rw [Pod.step] at hstep
    split at hstep
    · rename_i hrunner
      obtain ⟨hfile', hsidecar, hpublished⟩ := hfile.write hrunner hstep
      have hs : s ≠ .readFile := by
        rintro rfl
        cases hrunner
      refine ⟨hfile', ?_⟩
      rw [Progress, whole_snoc_of_ne hs, Waits, hsidecar, hpublished]
      simp only [Got, hsidecar, hpublished]
      exact hprogress
    · rename_i hrunner
      obtain ⟨hsame, hsamefile⟩ := sidecarStep_frame hstep
      exact ⟨hfile.frame (by simpa using hrunner) hsame hsamefile,
        hprogress.step hfile (hundisturbed s (by simp)) hstep⟩

/-! ## The end of the sidecar -/

/-- The turns the sidecar has left once the file is there. -/
def left : Sidecar → Nat
  | .checking => 6
  | .connecting | .polling => 5
  | .reading | .lastAttempt => 4
  | .read _ => 3
  | .decoded _ => 2
  | .flushing => 1
  | .returned _ => 0

theorem undisturbed_next (sidecar : Sidecar) : sidecar.next.undisturbed = true := by
  cases sidecar <;> rfl

/-- A turn of the sidecar brings it nearer to its end. -/
theorem exists_turn (unmarshal : GoString → Except String TestResult) {data : GoString}
    (hfile : pod.file = some data) (hleft : 0 < left pod.sidecar) :
    ∃ pod', pod.sidecarStep unmarshal pod.sidecar.next = some pod' ∧
      left pod'.sidecar < left pod.sidecar := by
  cases hsidecar : pod.sidecar with
  | read data' =>
      cases hdecode : unmarshal data' <;>
        simp [Pod.sidecarStep, Sidecar.next, hsidecar, hdecode, left]
  | returned => simp [hsidecar, left] at hleft
  | _ => simp [Pod.sidecarStep, Sidecar.next, hsidecar, hfile, left]

theorem left_turns {data : GoString} (n : Nat) (hfile : pod.file = some data)
    (hn : left pod.sidecar ≤ n) : left (pod.turns unmarshal n).sidecar = 0 := by
  induction n generalizing pod with
  | zero => exact Nat.le_zero.mp hn
  | succ n ih =>
      rw [Pod.turns]
      by_cases hleft : 0 < left pod.sidecar
      · obtain ⟨pod', hstep, hless⟩ := exists_turn unmarshal hfile hleft
        simp only [hstep]
        apply ih
        · rw [(sidecarStep_frame hstep).2, hfile]
        · omega
      · cases hsidecar : pod.sidecar with
        | returned => simp [Pod.sidecarStep, Sidecar.next, hsidecar, left]
        | _ => simp [hsidecar, left] at hleft

theorem Got.turns {data : GoString} (n : Nat) (h : Got unmarshal data pod) :
    Got unmarshal data (pod.turns unmarshal n) := by
  induction n generalizing pod with
  | zero => exact h
  | succ n ih =>
      rw [Pod.turns]
      split
      · rename_i hstep
        exact ih (h.step (undisturbed_next _) hstep).1
      · exact h

/-- A sidecar that waits, with the file there, gets all of it. -/
theorem Waits.turns {data : GoString} (n : Nat) (h : Waits pod) (hfile : pod.file = some data)
    (hn : left pod.sidecar ≤ n) : Got unmarshal data (pod.turns unmarshal n) := by
  induction n generalizing pod with
  | zero => rcases h.2 with hs | hs | hs | hs <;> simp [hs, left] at hn
  | succ n ih =>
      have hleft : 0 < left pod.sidecar := by
        rcases h.2 with hs | hs | hs | hs <;> simp [hs, left]
      obtain ⟨pod', hstep, hless⟩ := exists_turn unmarshal hfile hleft
      rw [Pod.turns]
      simp only [hstep]
      rcases h.step (undisturbed_next _) hstep with ⟨hwaits, _⟩ | ⟨_, data', hdata, hgot⟩
      · apply ih hwaits
        · rw [(sidecarStep_frame hstep).2, hfile]
        · omega
      · obtain rfl : data = data' := Option.some.inj (hfile.symm.trans hdata)
        exact hgot.turns n

theorem Got.delivered_iff_eq {data : GoString} {r : TestResult} (h : Got unmarshal data pod)
    (hpayload : unmarshal payload = .ok r) (hleft : left pod.sidecar = 0) :
    Delivered payload pod ↔ data = payload := by
  cases hsidecar : pod.sidecar with
  | returned err =>
      cases err with
      | none =>
          simp only [Got, hsidecar] at h
          simp [Delivered, hsidecar, h]
      | some err =>
          simp only [Got, hsidecar] at h
          simp only [Delivered, hsidecar, Sidecar.returned.injEq, reduceCtorEq, false_and,
            false_iff]
          rintro rfl
          rw [hpayload] at h
          cases h.1
  | _ => simp [hsidecar, left] at hleft

/-- After every undisturbed interleaving in which the runner finishes, with enough turns for
the sidecar to end, the payload is delivered exactly when no read came between the creation
of the file and its last byte. -/
theorem delivered_iff (unmarshal : GoString → Except String TestResult) (payload : GoString)
    (r : TestResult) (hpayload : unmarshal payload = .ok r) (history : List Step) (pod : Pod)
    (hrun : Machine.run (Pod.step unmarshal payload) .init history = some pod)
    (hundisturbed : ∀ s ∈ history, s.undisturbed = true) (hdone : pod.runner = .done)
    (n : Nat) (hn : 6 ≤ n) :
    Delivered payload (pod.turns unmarshal n) ↔ Whole payload history := by
  obtain ⟨hfileInv, hprogress⟩ := invariant hrun hundisturbed
  have hfile : pod.file = some payload := by
    simp only [FileInv, hdone] at hfileInv
    exact hfileInv.2.1
  have hleft : left pod.sidecar ≤ n := by
    have : left pod.sidecar ≤ 6 := by cases pod.sidecar <;> simp [left]
    omega
  have hend : left (pod.turns unmarshal n).sidecar = 0 := left_turns n hfile hleft
  rcases hprogress with ⟨hwaits, hwhole⟩ | ⟨data, hgot, hiff⟩
  · rw [(hwaits.turns n hfile hleft).delivered_iff_eq hpayload hend]
    simp only [hwhole]
  · rw [(hgot.turns n).delivered_iff_eq hpayload hend, hiff]

/-- The result of a test, as the runner encodes it. -/
def smokeJSON : GoString := .lit "\x7b\"kind\":\"K6Test\",\"name\":\"smoke\"\x7d"

/-- A decoder that knows this one text. -/
def decodeSmoke (data : GoString) : Except String TestResult :=
  if data = smokeJSON then .ok ⟨.k6Test, "smoke", "", false, ⟨0⟩, 0, []⟩
  else .error "unexpected end of JSON input"

/-- The sidecar polls once before the file is there, and reads it when it is complete. -/
theorem delivered_late_read :
    ∃ pod, Machine.run (Pod.step decodeSmoke smokeJSON) .init
        [.connect none, .readFile, .clock false, .create, .append 20, .append 12, .close] =
          some pod ∧
      Delivered smokeJSON (pod.turns decodeSmoke 6) := by
  have hrun : Machine.run (Pod.step decodeSmoke smokeJSON) .init
      [.connect none, .readFile, .clock false, .create, .append 20, .append 12, .close] =
        some ⟨some smokeJSON, .done, .polling, []⟩ := by decide +kernel
  have hwhole : Whole smokeJSON ([] ++ [.connect none] ++ [.readFile] ++
      [.clock false, .create, .append 20, .append 12, .close]) := by
    apply (whole_append_of_not_mem (by decide)).mpr
    apply whole_snoc_readFile.mpr
    exact ⟨(whole_append_of_not_mem (by decide)).mpr whole_nil, by decide⟩
  exact ⟨_, hrun, (delivered_iff decodeSmoke smokeJSON ⟨.k6Test, "smoke", "", false, ⟨0⟩, 0, []⟩
    (by decide +kernel) _ _ hrun (by decide) rfl 6 le_rfl).mpr hwhole⟩

/-- The sidecar reads the file as soon as it exists and is empty: `run` fails, and nothing is
published. -/
theorem empty_file_read :
    ∃ pod, Machine.run (Pod.step decodeSmoke smokeJSON) .init
        [.connect none, .create, .readFile, .append 32, .close] = some pod ∧
      pod.runner = .done ∧
      (pod.turns decodeSmoke 6).sidecar = .returned (some "unexpected end of JSON input") ∧
      (pod.turns decodeSmoke 6).published = [] := by
  refine ⟨⟨some smokeJSON, .done, .read [], []⟩, by decide +kernel, rfl, ?_, ?_⟩
  · decide +kernel
  · decide +kernel

end SyntheticsOperator.Proofs.HandOver
