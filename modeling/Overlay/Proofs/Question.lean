import Overlay.Proofs.Move

/-!
The questions that an operation puts to its ledger. A cache asks only what it has no answer to, and
once it has an answer it keeps it. A step depends on its ledger through the answers to its questions
and through nothing else.
-/

set_option autoImplicit false

namespace Overlay

variable {ε α β : Type}

/-- What a cache asks its ledger. -/
inductive Question where
  | account (address : Address)
  | isAlive (address : Address)
  | storage (address : Address) (key : Word)
  deriving DecidableEq

def Question.address : Question → Address
  | .account address | .isAlive address | .storage address _ => address

def Question.parts : Question → List Query
  | .account address => [.balance address, .nonce address, .code address]
  | .isAlive address => [.nonce address, .codeHash address, .balance address]
  | .storage address key => [.storage address key]

def Fetch.cause? (fetch : Fetch ε α) : Option ε :=
  match fetch.result with
  | .error cause => some cause
  | .ok _ => none

theorem Fetch.cause?_of_error {fetch : Fetch ε α} {cause : ε}
    (failure : fetch.result = .error cause) : fetch.cause? = some cause := by
  rw [cause?, failure]

theorem Fetch.cause?_of_ok {fetch : Fetch ε α} {value : α} (answer : fetch.result = .ok value) :
    fetch.cause? = none := by
  rw [cause?, answer]

namespace Ledger

def cause? (ledger : Ledger ε) : Question → Option ε
  | .account address => (ledger.account address).cause?
  | .isAlive address => (ledger.isAlive address).cause?
  | .storage address key => (ledger.storage address key).cause?

def queries (ledger : Ledger ε) : Question → List Query
  | .account address => (ledger.account address).queries
  | .isAlive address => (ledger.isAlive address).queries
  | .storage address key => (ledger.storage address key).queries

/-- Both ledgers give the same answer, or none for the same cause. -/
def Agrees (first second : Ledger ε) : Question → Prop
  | .account address => (first.account address).result = (second.account address).result
  | .isAlive address => (first.isAlive address).result = (second.isAlive address).result
  | .storage address key =>
    (first.storage address key).result = (second.storage address key).result

def Elementary.cause? (ledger : Elementary ε) : Query → Option ε
  | .nonce address => (ledger.nonce address).cause?
  | .codeHash address => (ledger.codeHash address).cause?
  | .balance address => (ledger.balance address).cause?
  | .code address => (ledger.code address).cause?
  | .storage address key => (ledger.storage address key).cause?

def Elementary.Agrees (first second : Elementary ε) : Query → Prop
  | .nonce address => (first.nonce address).result = (second.nonce address).result
  | .codeHash address => (first.codeHash address).result = (second.codeHash address).result
  | .balance address => (first.balance address).result = (second.balance address).result
  | .code address => (first.code address).result = (second.code address).result
  | .storage address key =>
    (first.storage address key).result = (second.storage address key).result

theorem result_andThen {first second : Fetch ε α} {next next' : α → Fetch ε β}
    (same : first.result = second.result)
    (go : ∀ value, (next value).result = (next' value).result) :
    (first.andThen next).result = (second.andThen next').result := by
  obtain ⟨queries, result⟩ := first
  obtain ⟨queries', result'⟩ := second
  cases same
  cases result with
  | error cause => rfl
  | ok value => exact go value

theorem agrees_ofElementary {first second : Elementary ε} {question : Question}
    (agree : ∀ query ∈ question.parts, first.Agrees second query) :
    (ofElementary first).Agrees (ofElementary second) question := by
  cases question with
  | account address =>
    have balance := agree (.balance address) (by simp [Question.parts])
    have nonce := agree (.nonce address) (by simp [Question.parts])
    have code := agree (.code address) (by simp [Question.parts])
    exact result_andThen balance fun _ => result_andThen nonce fun _ => result_andThen code
      fun _ => rfl
  | isAlive address =>
    have nonce := agree (.nonce address) (by simp [Question.parts])
    have codeHash := agree (.codeHash address) (by simp [Question.parts])
    have balance := agree (.balance address) (by simp [Question.parts])
    refine result_andThen nonce fun count => ?_
    split
    · rfl
    refine result_andThen codeHash fun hash => ?_
    split
    · rfl
    exact result_andThen balance fun _ => rfl
  | storage address key => exact agree (.storage address key) (by simp [Question.parts])

end Ledger

/-- Whether the account leaves the question to the ledger: nothing is asked about an account that is
loaded, nor about a slot whose value is known or whose account was created. -/
def Account.lacks (account : Account) : Question → Bool
  | .account _ | .isAlive _ => !account.status.loaded
  | .storage _ key => !account.status.created && (account.current? key).isNone

namespace Cache

def lacks (cache : Cache) (question : Question) : Bool :=
  (cache.entry question.address).lacks question

section Lacks

variable (cache : Cache) (address : Address)

@[simp] theorem lacks_account :
    cache.lacks (.account address) = !(cache.entry address).status.loaded := rfl

@[simp] theorem lacks_isAlive :
    cache.lacks (.isAlive address) = !(cache.entry address).status.loaded := rfl

@[simp] theorem lacks_storage (key : Word) :
    cache.lacks (.storage address key) = (!(cache.entry address).status.created &&
      ((cache.entry address).current? key).isNone) := rfl

end Lacks

def asks (cache : Cache) (question : Question) : List Question :=
  if cache.lacks question then [question] else []

end Cache

namespace Operation

/-- The questions of an operation, in the order they are asked. A transfer asks about the recipient
once it has loaded the sender. -/
def questions (ledger : Ledger ε) (cache : Cache) : Operation → List Question
  | .isAccountAlive address => cache.asks (.isAlive address)
  | .readSlot address key => cache.asks (.storage address key)
  | .load address | .writeSlot address _ _ | .setBalance address _ | .setNonce address _
  | .incNonce address | .setCode address _ | .create address | .selfDestruct address =>
    cache.asks (.account address)
  | .transfer sender recipient _ =>
    let loading := cache.load ledger sender
    cache.asks (.account sender) ++
      match loading.result with
      | .ok _ => loading.cache.asks (.account recipient)
      | .error _ => []
  | .emit _ | .warmAddress _ | .warmSlot _ _ | .accountCost _ | .storageCost _ _ | .preload _
  | .preloadPrecompiles => []

theorem questions_change (ledger : Ledger ε) (cache : Cache) {operation : Operation}
    {address : Address} {action : Account.Action}
    (changes : operation.change? = some (address, action)) :
    operation.questions ledger cache = cache.asks (.account address) := by
  cases operation <;> cases changes <;> rfl

end Operation

namespace Account

variable (account : Account) (question : Question)

theorem lacks_editSlot {key : Word} {edit : Slot → Slot}
    (keeps : ∀ slot, slot.current.isSome = true → (edit slot).current.isSome = true)
    (known : account.lacks question = false) :
    (account.editSlot key edit).lacks question = false := by
  cases question with
  | account | isAlive => exact known
  | storage address other =>
    simp only [lacks, status_editSlot, Bool.and_eq_false_iff, Option.isNone_eq_false_iff] at known ⊢
    refine known.imp_right fun known => ?_
    rw [current?_editSlot]
    split
    · next same =>
      rw [← same, ← current_slot] at known
      exact keeps _ known
    · exact known

theorem lacks_perform (action : Action) (known : account.lacks question = false) :
    (account.perform action).2.lacks question = false := by
  have outcome := account.perform_outcome action
  generalize account.perform action = result at outcome ⊢
  cases outcome with
  | load info => cases question <;> simp_all [lacks]
  | setBalance | setNonce | incNonce | setCode | selfDestruct =>
    cases question with
    | account | isAlive => rfl
    | storage => exact known
  | nonceDecreased | nonceOverflow | readUnknown => exact known
  | create => cases question <;> rfl
  | warmSlot key | preloadSlot key | readKnown key =>
    exact account.lacks_editSlot question (fun _ => id) known
  | recordFetch key fetched =>
    exact account.lacks_editSlot question (fun slot _ => by simp [Slot.recordFetch]) known
  | writeSlot key value =>
    -- A write edits a slot and marks the account besides.
    have edited : (account.editSlot key (·.recordWrite value)).lacks question = false :=
      account.lacks_editSlot question (fun _ _ => rfl) known
    cases question with
    | account | isAlive => exact edited
    | storage => exact edited

end Account

theorem Moves.lacks {ledger : Ledger ε} {before after : Cache} (moves : Moves ledger before after)
    {question : Question} (lacking : after.lacks question = true) :
    before.lacks question = true := by
  cases known : before.lacks question with
  | true => rfl
  | false =>
    have kept := moves.entry_invariant (P := fun account => account.lacks question = false)
      (fun account action => account.lacks_perform question action) question.address known
    exact absurd lacking (Bool.eq_false_iff.mp kept)

/-- Two steps that come to the same, whatever was asked on the way. -/
structure Step.Matches (first second : Step ε α) : Prop where
  result : first.result = second.result
  cache : first.cache = second.cache

namespace Step.Matches

variable {first second : Step ε α}

theorem refl (step : Step ε α) : Matches step step := ⟨rfl, rfl⟩

theorem ask (address : Address) {fetch fetch' : Fetch ε α} (same : fetch.result = fetch'.result)
    (cache : Cache) : Matches (.ask address fetch cache) (.ask address fetch' cache) :=
  ⟨congrArg (Except.mapError (Fault.unanswered address)) same, rfl⟩

theorem map (matching : Matches first second) (f : α → β) :
    Matches (first.map f) (second.map f) :=
  ⟨congrArg (Except.map f) matching.result, matching.cache⟩

theorem andThen (matching : Matches first second) {next next' : α → Cache → Step ε β}
    (go : ∀ value, first.result = .ok value →
      Matches (next value first.cache) (next' value first.cache)) :
    Matches (first.andThen next) (second.andThen next') := by
  obtain ⟨result, cache, queries⟩ := first
  obtain ⟨result', cache', queries'⟩ := second
  obtain ⟨rfl, rfl⟩ := matching
  cases result with
  | error fault => exact ⟨rfl, rfl⟩
  | ok value => exact ⟨(go value rfl).result, (go value rfl).cache⟩

end Step.Matches

theorem Step.queries_andThen {first : Step ε α} {next : α → Cache → Step ε β}
    (silent : ∀ value cache, (next value cache).queries = []) :
    (first.andThen next).queries = first.queries := by
  obtain ⟨result, cache, queries⟩ := first
  cases result with
  | error fault => rfl
  | ok value => exact (congrArg (queries ++ ·) (silent value cache)).trans (List.append_nil queries)

namespace Cache

section Queries

variable (ledger : Ledger ε) (cache : Cache) (address : Address)

theorem queries_asks (question : Question) :
    (cache.asks question).flatMap ledger.queries =
      if cache.lacks question then ledger.queries question else [] := by
  unfold asks
  split <;> simp

theorem mem_asks {question other : Question} :
    question ∈ cache.asks other ↔ cache.lacks other = true ∧ question = other := by
  unfold asks
  split <;> simp_all

theorem queries_isAccountAlive :
    (cache.isAccountAlive ledger address).queries =
      (cache.asks (.isAlive address)).flatMap ledger.queries := by
  rw [queries_asks, isAccountAlive, lacks_isAlive]
  cases (cache.entry address).status.loaded <;> rfl

theorem loadQueries_eq :
    cache.loadQueries ledger address =
      (cache.asks (.account address)).flatMap ledger.queries := by
  rw [queries_asks, loadQueries, lacks_account]
  cases (cache.entry address).status.loaded <;> rfl

theorem queries_load :
    (cache.load ledger address).queries =
      (cache.asks (.account address)).flatMap ledger.queries := by
  rw [← loadQueries_eq]
  have outcome := cache.load_outcome ledger address
  generalize cache.load ledger address = step at outcome ⊢
  cases outcome <;> rfl

theorem queries_readSlot (key : Word) :
    (cache.readSlot ledger address key).queries =
      (cache.asks (.storage address key)).flatMap ledger.queries := by
  rw [queries_asks, lacks_storage]
  have outcome := cache.readSlot_outcome ledger address key
  generalize cache.readSlot ledger address key = step at outcome ⊢
  cases outcome with
  | known value known => simp [known]
  | fetched value unknown filled =>
    cases (cache.entry address).status.created <;> simp [unknown, Ledger.queries]
  | failed cause unknown plain failure => simp [unknown, plain, Ledger.queries]

theorem queries_transfer (recipient : Address) (value : Word) :
    (cache.transfer ledger address recipient value).queries =
      ((Operation.transfer address recipient value).questions ledger cache).flatMap
        ledger.queries := by
  have first := cache.queries_load ledger address
  simp only [transfer, Operation.questions]
  generalize cache.load ledger address = step at first ⊢
  obtain ⟨result, after, queries⟩ := step
  cases result with
  | error fault => simpa [Step.andThen] using first
  | ok payer =>
    rw [List.flatMap_append, ← first, ← after.queries_load]
    refine congrArg (queries ++ ·) (Step.queries_andThen ?_)
    -- Once both accounts are loaded nothing more is asked.
    intro payee after
    repeat' split
    all_goals rfl

end Queries

section Congruence

variable {first second : Ledger ε} (cache : Cache) (address : Address)

theorem matches_isAccountAlive
    (agree : ∀ question ∈ cache.asks (.isAlive address), first.Agrees second question) :
    (cache.isAccountAlive first address).Matches (cache.isAccountAlive second address) := by
  unfold isAccountAlive
  cases loaded : (cache.entry address).status.loaded with
  | true => exact .refl _
  | false =>
    have lacking : cache.lacks (.isAlive address) = true := by simp [loaded]
    exact .ask address (agree _ (cache.mem_asks.mpr ⟨lacking, rfl⟩)) cache

theorem matches_load
    (agree : ∀ question ∈ cache.asks (.account address), first.Agrees second question) :
    (cache.load first address).Matches (cache.load second address) := by
  unfold load
  by_cases loaded : (cache.entry address).status.loaded = true
  · simp only [if_pos loaded]
    exact .refl _
  · have lacking : cache.lacks (.account address) = true := by simp [loaded]
    have same := agree _ (cache.mem_asks.mpr ⟨lacking, rfl⟩)
    simp only [if_neg loaded]
    exact (Step.Matches.ask address same cache).andThen fun _ _ => .refl _

theorem matches_readSlot (key : Word)
    (agree : ∀ question ∈ cache.asks (.storage address key), first.Agrees second question) :
    (cache.readSlot first address key).Matches (cache.readSlot second address key) := by
  unfold readSlot
  simp only [Account.readKnown?_eq]
  cases current : (cache.entry address).current? key with
  | some value => exact .refl _
  | none =>
    cases created : (cache.entry address).status.created with
    | true => exact .refl _
    | false =>
      have lacking : cache.lacks (.storage address key) = true := by simp [created, current]
      have same := agree _ (cache.mem_asks.mpr ⟨lacking, rfl⟩)
      exact (Step.Matches.ask address same _).andThen fun _ _ => .refl _

theorem matches_change (attempt : Account → Except (Fault ε) (α × Account))
    (agree : ∀ question ∈ cache.asks (.account address), first.Agrees second question) :
    (cache.change first address attempt).Matches (cache.change second address attempt) :=
  (cache.matches_load address agree).andThen fun _ _ => .refl _

theorem matches_transfer (recipient : Address) (value : Word)
    (agree : ∀ question ∈ (Operation.transfer address recipient value).questions first cache,
      first.Agrees second question) :
    (cache.transfer first address recipient value).Matches
      (cache.transfer second address recipient value) := by
  simp only [Operation.questions, List.mem_append] at agree
  refine (cache.matches_load address fun question asked => agree question (.inl asked)).andThen ?_
  intro payer loaded
  simp only [loaded] at agree
  refine (matches_load _ recipient fun question asked => agree question (.inr asked)).andThen ?_
  exact fun _ _ => .refl _

end Congruence

end Cache

namespace Operation

theorem queries_perform (context : Context ε) (cache : Cache) (operation : Operation) :
    (operation.perform context cache).queries =
      (operation.questions context.ledger cache).flatMap context.ledger.queries := by
  cases operation.view with
  | change _ address action changes =>
    rw [questions_change context.ledger cache changes, ← Cache.loadQueries_eq]
    have outcome := operation.change_outcome context cache changes
    generalize operation.perform context cache = step at outcome ⊢
    cases outcome <;> rfl
  | isAccountAlive address => exact cache.queries_isAccountAlive context.ledger address
  | load address => exact cache.queries_load context.ledger address
  | readSlot address key => exact cache.queries_readSlot context.ledger address key
  | transfer sender recipient value =>
    exact cache.queries_transfer context.ledger sender recipient value
  | emit | warmAddress | warmSlot | accountCost | storageCost | preload | preloadPrecompiles => rfl

/-- Ledgers that agree on what a step asks lead it to the same result and the same cache. -/
theorem matches_perform {first second : Ledger ε} (config : Config) (cache : Cache)
    (operation : Operation)
    (agree : ∀ question ∈ operation.questions first cache, first.Agrees second question) :
    (operation.perform ⟨first, config⟩ cache).Matches
      (operation.perform ⟨second, config⟩ cache) := by
  cases operation with
  | isAccountAlive address => exact (cache.matches_isAccountAlive address agree).map _
  | load address => exact (cache.matches_load address agree).map _
  | readSlot address key => exact (cache.matches_readSlot address key agree).map _
  | writeSlot address | setBalance address | setNonce address | incNonce address | setCode address
  | create address | selfDestruct address => exact (cache.matches_change address _ agree).map _
  | transfer sender recipient value =>
    exact (cache.matches_transfer sender recipient value agree).map _
  | emit | warmAddress | warmSlot | accountCost | storageCost | preload | preloadPrecompiles =>
    exact .refl _

theorem lacks_of_mem_questions (ledger : Ledger ε) (cache : Cache) (operation : Operation)
    {question : Question} (asked : question ∈ operation.questions ledger cache) :
    cache.lacks question = true := by
  have lacking : ∀ {cache : Cache} {other : Question}, question ∈ cache.asks other →
      cache.lacks question = true := by
    intro cache other asked
    obtain ⟨lacking, rfl⟩ := cache.mem_asks.mp asked
    exact lacking
  cases operation with
  | transfer sender recipient value =>
    simp only [questions, List.mem_append] at asked
    rcases asked with asked | asked
    · exact lacking asked
    · split at asked
      · -- What is lacking after the sender was loaded has been lacking before.
        exact (cache.moves_load ledger sender).lacks (lacking asked)
      · cases asked
  | emit | warmAddress | warmSlot | accountCost | storageCost | preload | preloadPrecompiles =>
    cases asked
  | _ => exact lacking asked

end Operation

end Overlay
