import Overlay.Proofs.Question

/-!
Failures of the ledger are atomic. An operation that is left without an answer stops at that
question and leaves the cache as it was, or as an access that did not fail would have left it. So it
can be repeated: with a ledger that gives the same answers as far as there were any, it comes to
what it would have come to at once.
-/

set_option autoImplicit false

namespace Overlay

variable {ε α β : Type}

namespace Ledger

def Repeats (first second : Ledger ε) (asked : List Question) : Prop :=
  ∀ question ∈ asked, first.cause? question = none → first.Agrees second question

end Ledger

/-- A fetch ends with the query that stays unanswered, and what it comes to is determined by the
answers to its queries. The other fetch is the one for the same question to another ledger. -/
structure Fetch.Traced (first second : Ledger.Elementary ε) (address : Address)
    (fetch fetch' : Fetch ε α) : Prop where
  answered : fetch.cause? = none → ∀ query ∈ fetch.queries, first.cause? query = none
  failed : ∀ cause, fetch.cause? = some cause → ∃ query, fetch.queries.getLast? = some query ∧
    query.address = address ∧ first.cause? query = some cause
  determined : (∀ query ∈ fetch.queries, first.Agrees second query) → fetch.result = fetch'.result

namespace Fetch.Traced

variable {first second : Ledger.Elementary ε} {address : Address}

theorem known (value : α) : Traced first second address (.known value) (.known value) where
  answered _ query member := by cases member
  failed cause failure := by cases failure
  determined _ := rfl

theorem sent (query : Query) {result result' : Except ε α} (about : query.address = address)
    (same : first.cause? query = (Fetch.sent query result).cause?)
    (agree : first.Agrees second query → result = result') :
    Traced first second address (.sent query result) (.sent query result') where
  answered answered other member := by
    rw [List.mem_singleton.mp member, same, answered]
  failed cause failure := ⟨query, rfl, about, same.trans failure⟩
  determined agrees := agree (agrees query (List.mem_singleton_self query))

theorem andThen {fetch fetch' : Fetch ε α} {next next' : α → Fetch ε β}
    (traced : Traced first second address fetch fetch')
    (go : ∀ value, Traced first second address (next value) (next' value)) :
    Traced first second address (fetch.andThen next) (fetch'.andThen next') := by
  obtain ⟨queries, result⟩ := fetch
  obtain ⟨queries', result'⟩ := fetch'
  cases result with
  | error cause =>
    refine ⟨traced.answered, traced.failed, fun agree => ?_⟩
    cases traced.determined agree
    rfl
  | ok value =>
    have later := go value
    refine ⟨?_, ?_, ?_⟩
    · intro answered query member
      rcases List.mem_append.mp member with member | member
      · exact traced.answered rfl query member
      · exact later.answered answered query member
    · intro cause failure
      obtain ⟨query, last, about, unanswered⟩ := later.failed cause failure
      refine ⟨query, ?_, about, unanswered⟩
      show (queries ++ (next value).queries).getLast? = some query
      rw [List.getLast?_append, last]
      rfl
    · intro agree
      have same := traced.determined fun query member =>
        agree query (List.mem_append_left _ member)
      cases same
      exact later.determined fun query member => agree query (List.mem_append_right _ member)

end Fetch.Traced

namespace Ledger

section Answers

variable (first second : Answers ε) (address : Address)

theorem traced_account :
    Fetch.Traced (ofAnswers first).toElementary (ofAnswers second).toElementary address
      ((ofAnswers first).account address) ((ofAnswers second).account address) := by
  refine Fetch.Traced.andThen (.sent (.balance address) rfl rfl id) fun balance => ?_
  refine Fetch.Traced.andThen (.sent (.nonce address) rfl rfl id) fun nonce => ?_
  refine Fetch.Traced.andThen (.sent (.code address) rfl rfl id) fun code => ?_
  exact .known _

theorem traced_isAlive :
    Fetch.Traced (ofAnswers first).toElementary (ofAnswers second).toElementary address
      ((ofAnswers first).isAlive address) ((ofAnswers second).isAlive address) := by
  refine Fetch.Traced.andThen (.sent (.nonce address) rfl rfl id) fun nonce => ?_
  split
  · exact .known true
  refine Fetch.Traced.andThen (.sent (.codeHash address) rfl rfl id) fun codeHash => ?_
  split
  · exact .known true
  refine Fetch.Traced.andThen (.sent (.balance address) rfl rfl id) fun balance => ?_
  exact .known _

theorem traced_storage (key : Word) :
    Fetch.Traced (ofAnswers first).toElementary (ofAnswers second).toElementary address
      ((ofAnswers first).storage address key) ((ofAnswers second).storage address key) :=
  .sent (.storage address key) rfl rfl id

theorem failed_query {question : Question} {cause : ε}
    (failure : (ofAnswers first).cause? question = some cause) :
    ∃ query, ((ofAnswers first).queries question).getLast? = some query ∧
      query.address = question.address ∧
        (ofAnswers first).toElementary.cause? query = some cause := by
  cases question with
  | account address => exact (traced_account first first address).failed cause failure
  | isAlive address => exact (traced_isAlive first first address).failed cause failure
  | storage address key => exact (traced_storage first first address key).failed cause failure

theorem repeats_of_queries {asked : List Question}
    (agree : ∀ query ∈ asked.flatMap (ofAnswers first).queries,
      (ofAnswers first).toElementary.cause? query = none →
        (ofAnswers first).toElementary.Agrees (ofAnswers second).toElementary query) :
    (ofAnswers first).Repeats (ofAnswers second) asked := by
  intro question member answered
  have sent : ∀ query ∈ (ofAnswers first).queries question,
      query ∈ asked.flatMap (ofAnswers first).queries := fun query listed =>
    List.mem_flatMap.mpr ⟨question, member, listed⟩
  have same : ∀ {α : Type} {fetch fetch' : Fetch ε α} {address : Address},
      Fetch.Traced (ofAnswers first).toElementary (ofAnswers second).toElementary address
        fetch fetch' → fetch.queries = (ofAnswers first).queries question →
          fetch.cause? = none → fetch.result = fetch'.result := by
    intro α fetch fetch' address traced queries answered
    refine traced.determined fun query listed => agree query (sent query (queries ▸ listed)) ?_
    exact traced.answered answered query listed
  cases question with
  | account address => exact same (traced_account first second address) rfl answered
  | isAlive address => exact same (traced_isAlive first second address) rfl answered
  | storage address key => exact same (traced_storage first second address key) rfl answered

end Answers

end Ledger

namespace Cache

variable {ledger : Ledger ε} (cache : Cache)

theorem touch_touch (address : Address) :
    (cache.touch address).touch address = cache.touch address := by
  rw [touch, entry_touch, setEntry_touch]
  rfl

theorem readSlot_touch (address : Address) (key : Word) :
    (cache.touch address).readSlot ledger address key = cache.readSlot ledger address key := by
  simp only [readSlot, entry_touch, touch_touch, setEntry_touch]

theorem transfer_setLoaded {sender : Address} {info : Info}
    (supplied : ledger.Supplies sender (cache.entry sender) info) (recipient : Address)
    (value : Word) :
    ((cache.setEntry sender ((cache.entry sender).load info)).transfer ledger sender recipient
        value).Matches (cache.transfer ledger sender recipient value) := by
  have loaded : ((cache.entry sender).load info).status.loaded = true := by simp
  have again : ledger.Supplies sender
      ((cache.setEntry sender ((cache.entry sender).load info)).entry sender) info := by
    rw [entry_setEntry_self]
    exact fun unloaded => absurd loaded (Bool.eq_false_iff.mp unloaded)
  unfold transfer
  rw [load_of_supplies supplied, load_of_supplies again, entry_setEntry_self,
    Account.load_of_loaded loaded, setEntry_setEntry]
  exact ⟨rfl, rfl⟩

end Cache

/-- What an operation leaves of a cache that it got no answer for: a read has touched its address, a
transfer without an answer about the recipient has loaded the sender, and all else is as before. -/
def Operation.Leaves (ledger : Ledger ε) (before after : Cache) (address : Address) :
    Operation → Prop
  | .readSlot target _ =>
    address = target ∧ after = before.touch target ∧
      ∀ other, after.entry other = before.entry other
  | .transfer sender recipient _ =>
    (address = sender ∧ (∃ fault, (before.load ledger sender).result = .error fault) ∧
        after = before) ∨
      (address = recipient ∧ (∃ load, (before.load ledger sender).result = .ok load) ∧
        after = (before.load ledger sender).cache)
  | _ => after = before

/-- The questions end with one about the address that the ledger gave no answer to, for this
cause. -/
def Ledger.StopsAt (ledger : Ledger ε) (asked : List Question) (address : Address) (cause : ε) :
    Prop :=
  ∃ answered question, asked = answered ++ [question] ∧
    (∀ other ∈ answered, ledger.cause? other = none) ∧
    question.address = address ∧ ledger.cause? question = some cause

namespace Operation

variable {context : Context ε} {cache : Cache} {address : Address} {cause : ε}

theorem stopsAt_asks {ledger : Ledger ε} {question : Question}
    (lacking : cache.lacks question = true) (failure : ledger.cause? question = some cause) :
    ledger.StopsAt (cache.asks question) question.address cause :=
  ⟨[], question, if_pos lacking, by simp, rfl, failure⟩

theorem reply_ne_unanswered (reply : Account.Reply) (target : Address) :
    reply.answer target ≠ .error (.unanswered address cause) := by
  cases reply with
  | nonce next => cases next <;> simp [Account.Reply.answer]
  | done | nonceDecreased | wasWarm | value => simp [Account.Reply.answer]

theorem unanswered_change {operation : Operation} {target : Address} {action : Account.Action}
    (changes : operation.change? = some (target, action))
    (failed : (operation.perform context cache).result = .error (.unanswered address cause)) :
    context.ledger.StopsAt (operation.questions context.ledger cache) address cause ∧
      operation.Leaves context.ledger cache (operation.perform context cache).cache address := by
  have leaves : ∀ after, after = cache → operation.Leaves context.ledger cache after address := by
    intro after same
    cases operation <;> cases changes <;> exact same
  rw [questions_change context.ledger cache changes]
  have outcome := operation.change_outcome context cache changes
  generalize operation.perform context cache = step at outcome failed ⊢
  cases outcome with
  | performed => exact absurd failed (reply_ne_unanswered _ target)
  | failed cause unloaded failure =>
    cases failed
    exact ⟨stopsAt_asks (by simp [unloaded]) (Fetch.cause?_of_error failure),
      leaves _ rfl⟩

theorem unanswered_isAccountAlive {target : Address}
    (failed : (cache.isAccountAlive context.ledger target).result =
      .error (.unanswered address cause)) :
    context.ledger.StopsAt (cache.asks (.isAlive target)) address cause := by
  unfold Cache.isAccountAlive at failed
  split at failed
  · cases failed
  · next unloaded =>
    have lacking : cache.lacks (.isAlive target) = true := by simp [unloaded]
    cases answer : (context.ledger.isAlive target).result with
    | ok alive =>
      rw [Step.ask_ok cache answer] at failed
      cases failed
    | error cause' =>
      rw [Step.ask_error cache answer] at failed
      cases failed
      exact stopsAt_asks lacking (Fetch.cause?_of_error answer)

theorem unanswered_readSlot {target : Address} {key : Word}
    (failed : (cache.readSlot context.ledger target key).result =
      .error (.unanswered address cause)) :
    context.ledger.StopsAt (cache.asks (.storage target key)) address cause ∧
      address = target ∧ (cache.readSlot context.ledger target key).cache = cache.touch target := by
  have outcome := cache.readSlot_outcome context.ledger target key
  generalize cache.readSlot context.ledger target key = step at outcome failed ⊢
  cases outcome with
  | known | fetched => cases failed
  | failed cause unknown plain failure =>
    cases failed
    have lacking : cache.lacks (.storage address key) = true := by simp [unknown, plain]
    exact ⟨stopsAt_asks lacking (Fetch.cause?_of_error failure), rfl, rfl⟩

theorem unanswered_transfer {sender recipient : Address} {value : Word}
    (failed : (cache.transfer context.ledger sender recipient value).result =
      .error (.unanswered address cause)) :
    context.ledger.StopsAt ((transfer sender recipient value).questions context.ledger cache)
        address cause ∧
      (transfer sender recipient value).Leaves context.ledger cache
        (cache.transfer context.ledger sender recipient value).cache address := by
  have outcome := cache.transfer_outcome context.ledger sender recipient value
  generalize cache.transfer context.ledger sender recipient value = step at outcome failed ⊢
  simp only [questions, Leaves]
  cases outcome with
  | unmoved | moved => cases failed
  | senderFailed cause unloaded failure =>
    cases failed
    rw [Cache.load_of_failure unloaded failure, List.append_nil]
    exact ⟨stopsAt_asks (by simp [unloaded]) (Fetch.cause?_of_error failure),
      .inl ⟨rfl, ⟨_, rfl⟩, rfl⟩⟩
  | recipientFailed info supplied payer loaded cause unloaded failure =>
    cases failed
    subst loaded
    rw [Cache.load_of_supplies supplied]
    refine ⟨⟨cache.asks (.account sender), .account address, ?_, ?_, rfl,
      Fetch.cause?_of_error failure⟩, .inr ⟨rfl, ⟨_, rfl⟩, rfl⟩⟩
    · exact congrArg _ (if_pos (by simp [unloaded]))
    · intro other asked
      obtain ⟨lacking, rfl⟩ := cache.mem_asks.mp asked
      have missing : (cache.entry sender).status.loaded = false := by simpa using lacking
      exact Fetch.cause?_of_ok (supplied missing)

theorem result_of_map {α : Type} {step : Step ε α} {f : α → Reply}
    (failed : (step.map f).result = .error (.unanswered address cause)) :
    step.result = .error (.unanswered address cause) := by
  obtain ⟨result, _, _⟩ := step
  cases result with
  | ok value => cases failed
  | error fault => exact congrArg Except.error (Except.error.inj failed)

/-- An operation without an answer stops at the question that has none and leaves no trace of
itself, beyond the accesses that were done by then. -/
theorem unanswered (operation : Operation)
    (failed : (operation.perform context cache).result = .error (.unanswered address cause)) :
    context.ledger.StopsAt (operation.questions context.ledger cache) address cause ∧
      operation.Leaves context.ledger cache (operation.perform context cache).cache address := by
  cases operation.view with
  | change _ target action changes => exact unanswered_change changes failed
  | isAccountAlive target =>
    exact ⟨unanswered_isAccountAlive (result_of_map failed), cache.cache_isAccountAlive _ target⟩
  | load target =>
    have outcome := cache.load_outcome context.ledger target
    simp only [perform] at failed ⊢
    generalize cache.load context.ledger target = step at outcome failed ⊢
    cases outcome with
    | answered => cases failed
    | failed cause unloaded failure =>
      cases failed
      exact ⟨stopsAt_asks (by simp [unloaded]) (Fetch.cause?_of_error failure), rfl⟩
  | readSlot target key =>
    obtain ⟨stops, about, left⟩ := unanswered_readSlot (result_of_map failed)
    exact ⟨stops, about, left, fun other => by
      rw [perform, Step.map, left]
      exact cache.entry_touch target other⟩
  | transfer sender recipient value => exact unanswered_transfer (result_of_map failed)
  | emit | warmAddress | warmSlot | accountCost | storageCost | preload | preloadPrecompiles =>
    cases failed

/-- What a failed operation left serves as well as what was there before it, once the ledger repeats
its answers. -/
theorem matches_again (operation : Operation) {ledger : Ledger ε} {after : Cache}
    (left : operation.Leaves context.ledger cache after address)
    (repeats : context.ledger.Repeats ledger (operation.questions context.ledger cache)) :
    (operation.perform ⟨ledger, context.config⟩ after).Matches
      (operation.perform ⟨ledger, context.config⟩ cache) := by
  cases operation with
  | readSlot target key =>
    obtain ⟨_, rfl, _⟩ := left
    rw [perform, cache.readSlot_touch]
    exact .refl _
  | transfer sender recipient value =>
    rcases left with ⟨_, _, rfl⟩ | ⟨_, ⟨load, loaded⟩, rfl⟩
    · exact .refl _
    · have outcome := cache.load_outcome context.ledger sender
      generalize loading : cache.load context.ledger sender = step at outcome loaded ⊢
      cases outcome with
      | failed => cases loaded
      | answered info supplied =>
        -- The second ledger supplies the sender as well: it repeats what the first one said.
        have supplied' : ledger.Supplies sender (cache.entry sender) info := by
          intro unloaded
          have asked : .account sender ∈
              (transfer sender recipient value).questions context.ledger cache :=
            List.mem_append_left _ (cache.mem_asks.mpr ⟨by simp [unloaded], rfl⟩)
          have answer := supplied unloaded
          exact (repeats _ asked (Fetch.cause?_of_ok answer)).symm.trans answer
        exact (cache.transfer_setLoaded supplied' recipient value).map _
  | _ =>
    cases left
    exact .refl _

/-- Failures of the ledger are atomic and can be repeated. The operation stops at a question about
the address of the fault, which the ledger failed to answer; where it is asked for one elementary
answer at a time, the query that failed is the last one sent. The cache is left as it was, up to the
accesses done by then. Repeated with a ledger that gives the answers that were given, the operation
has the result and leaves the cache that it would have had and left with that ledger at once. -/
theorem atomic_of_unanswered (context : Context ε) (cache : Cache) (operation : Operation)
    {address : Address} {cause : ε}
    (failed : (operation.perform context cache).result = .error (.unanswered address cause)) :
    context.ledger.StopsAt (operation.questions context.ledger cache) address cause ∧
    (∀ answers, context.ledger = .ofAnswers answers →
      ∃ query, (operation.perform context cache).queries.getLast? = some query ∧
        query.address = address ∧ context.ledger.toElementary.cause? query = some cause) ∧
    operation.Leaves context.ledger cache (operation.perform context cache).cache address ∧
    ∀ ledger, context.ledger.Repeats ledger (operation.questions context.ledger cache) →
      (operation.perform ⟨ledger, context.config⟩
        (operation.perform context cache).cache).Matches
          (operation.perform ⟨ledger, context.config⟩ cache) := by
  obtain ⟨stops, left⟩ := operation.unanswered failed
  refine ⟨stops, ?_, left, fun ledger repeats => operation.matches_again left repeats⟩
  intro answers composed
  obtain ⟨answered, question, asked, _, rfl, failure⟩ := stops
  rw [operation.queries_perform, asked, List.flatMap_append, List.flatMap_singleton]
  rw [composed] at failure ⊢
  obtain ⟨query, last, about, unanswered⟩ := Ledger.failed_query answers failure
  refine ⟨query, ?_, about, unanswered⟩
  rw [List.getLast?_append, last]
  rfl

/-- A transfer that gets no code for its recipient, and is made once there is an answer. -/
theorem transfer_after_outage :
    let sender := FixedBytes.ofNat 20 1
    let recipient := FixedBytes.ofNat 20 2
    let outage : Ledger.Answers Unit :=
      { nonce := fun _ => .ok 0
        codeHash := fun _ => .ok emptyCodeHash
        balance := fun _ => .ok 7
        code := fun address => if address = recipient then .error () else .ok []
        storage := fun _ _ => .ok none }
    let restored : Ledger.Answers Unit := { outage with code := fun _ => .ok [] }
    let operation : Operation := .transfer sender recipient 5
    let step := operation.perform ⟨.ofAnswers outage, {}⟩ {}
    let again := operation.perform ⟨.ofAnswers restored, {}⟩ step.cache
    step.result = .error (.unanswered recipient ()) ∧
      step.cache = (({} : Cache).load (.ofAnswers outage) sender).cache ∧
        (∃ query, step.queries.getLast? = some query ∧ query.address = recipient) ∧
          again.result = .ok (.transfer none) ∧
            (again.cache.entry recipient).info.balance = 12 := by
  intro sender recipient outage restored operation step again
  have failed : step.result = .error (.unanswered recipient ()) := by rfl
  obtain ⟨_, queried, left, repeats⟩ :=
    atomic_of_unanswered ⟨.ofAnswers outage, {}⟩ {} operation failed
  obtain ⟨query, last, about, _⟩ := queried outage rfl
  have loaded : step.cache = (({} : Cache).load (.ofAnswers outage) sender).cache :=
    left.elim (fun first => absurd first.1 (by decide)) fun second => second.2.2
  have matching := repeats (.ofAnswers restored) <| by
    apply Ledger.repeats_of_queries
    intro query _ answered
    cases query with
    | nonce | codeHash | balance | storage => rfl
    | code address =>
      by_cases out : address = recipient
      · subst out
        cases answered
      · exact if_neg out
  exact ⟨failed, loaded, ⟨query, last, about⟩, matching.result.trans rfl, by
    rw [matching.cache]
    rfl⟩

end Operation

end Overlay
