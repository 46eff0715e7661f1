import Mathlib.Logic.Relation

/-!
# Programs that send requests

A program is a tree: it is done with a value, or it sends a request and goes on with
the answer.  `Ensures` says what one program does whatever the answers are.  `Safe` is
the same for a program that shares a service with others: between two of its requests
the service may move on, as far as `grows` allows.  `Pool.run_safe` is the rule for any
number of such programs, interleaved in any order.  `exec` runs one program against a
service that answers by a function, and `Steps` is a run that may stop before its end.
-/

namespace SyntheticsOperator.Support

variable {Req : Type} {Ans : Req → Type} {α β σ τ : Type}

inductive Program (Req : Type) (Ans : Req → Type) (α : Type) where
  | done (value : α)
  | call (request : Req) (next : Ans request → Program Req Ans α)

namespace Program

def bind : Program Req Ans α → (α → Program Req Ans β) → Program Req Ans β
  | done value, rest => rest value
  | call request next, rest => call request fun answer => (next answer).bind rest

@[simp] theorem done_bind (value : α) (rest : α → Program Req Ans β) :
    (done value : Program Req Ans α).bind rest = rest value := rfl

@[simp] theorem call_bind (request : Req) (next : Ans request → Program Req Ans α)
    (rest : α → Program Req Ans β) :
    (call request next).bind rest = call request fun answer => (next answer).bind rest := rfl

theorem bind_assoc {γ : Type} (p : Program Req Ans α) (next : α → Program Req Ans β)
    (rest : β → Program Req Ans γ) :
    (p.bind next).bind rest = p.bind fun value => (next value).bind rest := by
  induction p with
  | done value => rfl
  | call request _ ih =>
      simp only [call_bind, call.injEq, heq_eq_eq, true_and]
      funext answer
      exact ih answer

/-! ## One program -/

section Ensures

variable (allowed : (request : Req) → Ans request → Prop) (good : Req → Prop)

/-- Whatever allowed answers come, every request is `good` and the result satisfies
`post`. -/
def Ensures (post : α → Prop) : Program Req Ans α → Prop
  | done value => post value
  | call request next =>
      good request ∧ ∀ answer, allowed request answer → Ensures post (next answer)

variable {allowed good}

@[simp] theorem ensures_done {post : α → Prop} {value : α} :
    Ensures allowed good post (done value : Program Req Ans α) ↔ post value := Iff.rfl

@[simp] theorem ensures_call {post : α → Prop} {request : Req}
    {next : Ans request → Program Req Ans α} :
    Ensures allowed good post (call request next) ↔
      good request ∧ ∀ answer, allowed request answer → Ensures allowed good post (next answer) :=
  Iff.rfl

theorem ensures_bind {post : β → Prop} {p : Program Req Ans α}
    {rest : α → Program Req Ans β} :
    Ensures allowed good post (p.bind rest) ↔
      Ensures allowed good (fun value => Ensures allowed good post (rest value)) p := by
  induction p with
  | done value => exact Iff.rfl
  | call request next ih =>
      rw [call_bind, ensures_call, ensures_call]
      exact and_congr_right fun _ => forall₂_congr fun answer _ => ih answer

theorem Ensures.mono {post post' : α → Prop} {p : Program Req Ans α}
    (h : Ensures allowed good post p) (hpost : ∀ value, post value → post' value) :
    Ensures allowed good post' p := by
  induction p with
  | done value => exact hpost value h
  | call request next ih => exact ⟨h.1, fun answer hanswer => ih answer (h.2 answer hanswer)⟩

end Ensures

/-! ## A program that shares a service -/

section Safe

variable (serve : σ → (request : Req) → Ans request → σ → Prop)
  (inv : σ → Prop) (grows : σ → σ → Prop)

/-- Every request is sent in a state the service has grown to.  Whatever it does then
keeps the invariant and grows the state, and the result satisfies `post`. -/
def Safe (post : α → σ → Prop) : Program Req Ans α → σ → Prop
  | done value, s => post value s
  | call request next, s =>
      ∀ s₁, grows s s₁ → inv s₁ → ∀ answer s₂, serve s₁ request answer s₂ →
        inv s₂ ∧ grows s₁ s₂ ∧ Safe post (next answer) s₂

variable {serve inv grows}

theorem Safe.grow (htrans : ∀ a b c, grows a b → grows b c → grows a c)
    {post : α → σ → Prop} (hpost : ∀ value a b, grows a b → post value a → post value b)
    {p : Program Req Ans α} {s s' : σ} (h : Safe serve inv grows post p s) (hs : grows s s') :
    Safe serve inv grows post p s' := by
  cases p with
  | done value => exact hpost value s s' hs h
  | call request next => exact fun s₁ hs₁ => h s₁ (htrans s s' s₁ hs hs₁)

theorem Safe.bind {post : β → σ → Prop} {mid : α → σ → Prop} {p : Program Req Ans α}
    {rest : α → Program Req Ans β} {s : σ} (h : Safe serve inv grows mid p s)
    (hs : inv s) (hrest : ∀ value s', inv s' → mid value s' →
      Safe serve inv grows post (rest value) s') :
    Safe serve inv grows post (p.bind rest) s := by
  induction p generalizing s with
  | done value => exact hrest value s hs h
  | call request next ih =>
      intro s₁ hs₁ hinv answer s₂ hserve
      obtain ⟨hinv₂, hgrows, hnext⟩ := h s₁ hs₁ hinv answer s₂ hserve
      exact ⟨hinv₂, hgrows, ih answer hnext hinv₂⟩

/-- Good requests keep an invariant of the service, whatever else happens to it. -/
theorem Ensures.safe {good : Req → Prop} {post : α → Prop} {p : Program Req Ans α}
    (h : Ensures (fun _ _ => True) good post p)
    (hinv : ∀ s request answer s', good request → inv s → serve s request answer s' → inv s')
    (s : σ) : Safe serve inv (fun _ _ => True) (fun value _ => post value) p s := by
  induction p generalizing s with
  | done value => exact h
  | call request next ih =>
      intro s₁ _ hs₁ answer s₂ hserve
      exact ⟨hinv s₁ request answer s₂ h.1 hs₁ hserve, trivial, ih answer (h.2 answer trivial) s₂⟩

end Safe

/-! ## A service that answers by a function -/

section Exec

variable (serve : σ → (request : Req) → Ans request × σ)

/-- The result of a program and the state that it leaves. -/
def exec : Program Req Ans α → σ → α × σ
  | done value, s => (value, s)
  | call request next, s => exec (next (serve s request).1) (serve s request).2

/-- The requests that a program sends. -/
def sent : Program Req Ans α → σ → List Req
  | done _, _ => []
  | call request next, s => request :: sent (next (serve s request).1) (serve s request).2

variable {serve}

@[simp] theorem exec_done (value : α) (s : σ) :
    (done value : Program Req Ans α).exec serve s = (value, s) := rfl

@[simp] theorem sent_done (value : α) (s : σ) :
    (done value : Program Req Ans α).sent serve s = [] := rfl

theorem exec_bind (p : Program Req Ans α) (rest : α → Program Req Ans β) (s : σ) :
    (p.bind rest).exec serve s = (rest (p.exec serve s).1).exec serve (p.exec serve s).2 := by
  induction p generalizing s with
  | done value => rfl
  | call request next ih => exact ih _ _

theorem sent_bind (p : Program Req Ans α) (rest : α → Program Req Ans β) (s : σ) :
    (p.bind rest).sent serve s =
      p.sent serve s ++ (rest (p.exec serve s).1).sent serve (p.exec serve s).2 := by
  induction p generalizing s with
  | done value => rfl
  | call request next ih =>
      rw [call_bind, sent, sent, exec, ih, List.cons_append]

end Exec

/-! ## Runs that stop anywhere -/

section Steps

variable (serve : σ → (request : Req) → Ans request → σ → Prop)

/-- A program has had some of its requests answered, none or all of them perhaps, and
`s'` is the state of the service then. -/
inductive Steps : Program Req Ans α → σ → Program Req Ans α → σ → Prop
  | refl (p : Program Req Ans α) (s : σ) : Steps p s p s
  | call {request : Req} {next : Ans request → Program Req Ans α} {answer : Ans request}
      {p' : Program Req Ans α} {s s₁ s' : σ} (h : serve s request answer s₁)
      (hrest : Steps (next answer) s₁ p' s') : Steps (.call request next) s p' s'

variable {serve} {good : Req → Prop} {inv : σ → Prop}

/-- Good requests keep an invariant of the service wherever the program stops. -/
theorem Ensures.steps {post : α → Prop} {p p' : Program Req Ans α} {s s' : σ}
    (h : Ensures (fun _ _ => True) good post p) (hsteps : Steps serve p s p' s')
    (hinv : ∀ s request answer s', good request → inv s → serve s request answer s' → inv s')
    (hs : inv s) : inv s' := by
  induction hsteps with
  | refl => exact hs
  | call hserve _ ih => exact ih (h.2 _ trivial) (hinv _ _ _ _ h.1 hs hserve)

end Steps

end Program

/-! ## Any number of programs -/

/-- A service and the programs under way, each with a tag. -/
structure Pool (σ τ : Type) (Req : Type) (Ans : Req → Type) (α : Type) where
  state : σ
  calls : List (τ × Program Req Ans α)

namespace Pool

section Run

variable (serve : σ → (request : Req) → Ans request → σ → Prop)
  (starts : τ → Program Req Ans α → Prop)

/-- A program starts, or one of those under way has its next request answered. -/
inductive Step : Pool σ τ Req Ans α → Pool σ τ Req Ans α → Prop
  | start (s : σ) (calls : List (τ × Program Req Ans α)) (tag : τ) (p : Program Req Ans α)
      (h : starts tag p) : Step ⟨s, calls⟩ ⟨s, calls ++ [(tag, p)]⟩
  | answer (s s' : σ) (before after : List (τ × Program Req Ans α)) (tag : τ) (request : Req)
      (next : Ans request → Program Req Ans α) (answer : Ans request)
      (h : serve s request answer s') :
      Step ⟨s, before ++ (tag, .call request next) :: after⟩
        ⟨s', before ++ (tag, next answer) :: after⟩

abbrev Run : Pool σ τ Req Ans α → Pool σ τ Req Ans α → Prop :=
  Relation.ReflTransGen (Step serve starts)

variable {serve starts} {inv : σ → Prop} {grows : σ → σ → Prop} {post : τ → α → σ → Prop}

/-- The invariant, and what every program under way still owes. -/
structure AllSafe (serve : σ → (request : Req) → Ans request → σ → Prop) (inv : σ → Prop)
    (grows : σ → σ → Prop) (post : τ → α → σ → Prop) (pool : Pool σ τ Req Ans α) : Prop where
  state : inv pool.state
  calls : ∀ call ∈ pool.calls,
    Program.Safe serve inv grows (post call.1) call.2 pool.state

theorem Step.allSafe (hrefl : ∀ s, grows s s)
    (htrans : ∀ a b c, grows a b → grows b c → grows a c)
    (hpost : ∀ tag value a b, grows a b → post tag value a → post tag value b)
    (hstarts : ∀ tag p, starts tag p → ∀ s, inv s → Program.Safe serve inv grows (post tag) p s)
    {pool pool' : Pool σ τ Req Ans α} (hstep : Step serve starts pool pool')
    (h : AllSafe serve inv grows post pool) :
    grows pool.state pool'.state ∧ AllSafe serve inv grows post pool' := by
  cases hstep with
  | start s calls tag p hp =>
      refine ⟨hrefl s, h.state, ?_⟩
      intro call hcall
      rcases List.mem_append.mp hcall with hcall | hcall
      · exact h.calls call hcall
      · obtain rfl := List.mem_singleton.mp hcall
        exact hstarts tag p hp s h.state
  | answer s s' before after tag request next answer hserve =>
      have hself := h.calls (tag, .call request next) (by simp)
      obtain ⟨hinv, hgrows, hnext⟩ := hself s (hrefl s) h.state answer s' hserve
      have hold (call : τ × Program Req Ans α)
          (hcall : Program.Safe serve inv grows (post call.1) call.2 s) :
          Program.Safe serve inv grows (post call.1) call.2 s' :=
        hcall.grow htrans (hpost call.1) hgrows
      refine ⟨hgrows, hinv, ?_⟩
      intro call hcall
      rcases List.mem_append.mp hcall with hcall | hcall
      · exact hold call (h.calls call (List.mem_append_left _ hcall))
      · rcases List.mem_cons.mp hcall with rfl | hcall
        · exact hnext
        · exact hold call (h.calls call (by simp [hcall]))

/-- Whatever is safe to start is safe all along: every run keeps the invariant, grows
the state, and leaves every result with its postcondition. -/
theorem run_safe (hrefl : ∀ s, grows s s)
    (htrans : ∀ a b c, grows a b → grows b c → grows a c)
    (hpost : ∀ tag value a b, grows a b → post tag value a → post tag value b)
    (hstarts : ∀ tag p, starts tag p → ∀ s, inv s → Program.Safe serve inv grows (post tag) p s)
    {pool pool' : Pool σ τ Req Ans α} (hrun : Run serve starts pool pool')
    (h : AllSafe serve inv grows post pool) :
    grows pool.state pool'.state ∧ AllSafe serve inv grows post pool' := by
  induction hrun with
  | refl => exact ⟨hrefl _, h⟩
  | tail _ hstep ih =>
      obtain ⟨hgrows, hsafe⟩ := ih
      obtain ⟨hgrows', hsafe'⟩ := hstep.allSafe hrefl htrans hpost hstarts hsafe
      exact ⟨htrans _ _ _ hgrows hgrows', hsafe'⟩

end Run

section Advance

variable {serve : σ → (request : Req) → Ans request → σ → Prop}
  {starts : τ → Program Req Ans α → Prop}

theorem run_start (s : σ) (before calls : List (τ × Program Req Ans α))
    (h : ∀ call ∈ calls, starts call.1 call.2) :
    Run serve starts ⟨s, before⟩ ⟨s, before ++ calls⟩ := by
  induction calls generalizing before with
  | nil => rw [List.append_nil]
  | cons call calls ih =>
      have hrest := ih (before ++ [call]) fun other hmem => h other (.tail _ hmem)
      rw [List.append_assoc, List.singleton_append] at hrest
      exact .head (.start s before call.1 call.2 (h call (.head _))) hrest

/-- The next request of the `i`th program is answered, if it has one. -/
def advance (answers : σ → (request : Req) → Ans request × σ) (pool : Pool σ τ Req Ans α)
    (i : Nat) : Pool σ τ Req Ans α :=
  match pool.calls[i]? with
  | some (tag, .call request next) =>
      ⟨(answers pool.state request).2,
        pool.calls.set i (tag, next (answers pool.state request).1)⟩
  | _ => pool

theorem run_advance {answers : σ → (request : Req) → Ans request × σ}
    (hanswers : ∀ s request, serve s request (answers s request).1 (answers s request).2)
    (pool : Pool σ τ Req Ans α) (i : Nat) : Run serve starts pool (pool.advance answers i) := by
  unfold advance
  split
  · rename_i tag request next hcall
    obtain ⟨hi, hget⟩ := List.getElem?_eq_some_iff.mp hcall
    have hcalls : pool.calls = pool.calls.take i ++
        (tag, .call request next) :: pool.calls.drop (i + 1) := by
      rw [← hget, List.getElem_cons_drop, List.take_append_drop]
    rw [List.set_eq_take_append_cons_drop, if_pos hi]
    have hstep : Step serve starts
        ⟨pool.state, pool.calls.take i ++ (tag, .call request next) :: pool.calls.drop (i + 1)⟩
        ⟨(answers pool.state request).2, pool.calls.take i ++
          (tag, next (answers pool.state request).1) :: pool.calls.drop (i + 1)⟩ :=
      .answer _ _ _ _ tag request next _ (hanswers pool.state request)
    rw [← hcalls] at hstep
    exact .single hstep
  · exact .refl

/-- The programs have their requests answered in the order of the list. -/
theorem run_foldl_advance {answers : σ → (request : Req) → Ans request × σ}
    (hanswers : ∀ s request, serve s request (answers s request).1 (answers s request).2)
    (pool : Pool σ τ Req Ans α) (order : List Nat) :
    Run serve starts pool (order.foldl (advance answers) pool) := by
  induction order generalizing pool with
  | nil => exact .refl
  | cons i order ih => exact (run_advance hanswers pool i).trans (ih _)

end Advance

end Pool

end SyntheticsOperator.Support
