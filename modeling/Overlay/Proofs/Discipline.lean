import Overlay.Proofs.Question
import Overlay.Proofs.Warming
import Overlay.Proofs.Warmth

/-!
What a cache asks its ledger over a whole history. An account is asked about until it is loaded and
never again; a slot is asked about until it is answered, written or emptied by a creation. The
ledger may fail, and may be another one at every step.
-/

set_option autoImplicit false

namespace Overlay

variable {ε : Type}

/-- The accounts that an operation loads, in the order in which it gets to them. -/
def Operation.targets : Operation → List Address
  | load address | writeSlot address _ _ | setBalance address _ | setNonce address _
  | incNonce address | setCode address _ | create address | selfDestruct address => [address]
  | transfer sender recipient _ => [sender, recipient]
  | isAccountAlive _ | readSlot _ _ | emit _ | warmAddress _ | warmSlot _ _ | accountCost _
  | storageCost _ _ | preload _ | preloadPrecompiles => []

namespace Event

variable (event : Event ε)

def Recorded : Prop := ∃ answers, event.context.ledger = .ofAnswers answers

/-- The addresses whose accounts were loaded. An operation that was refused, or that failed at a
later address, has loaded all the same. -/
def loads : List Address :=
  event.operation.targets.takeWhile event.answer.reached

def Answered (query : Query) : Prop :=
  query ∈ event.answer.queries ∧ event.context.ledger.toElementary.cause? query = none

def Settles : Query → Prop
  | .nonce address | .codeHash address | .balance address | .code address =>
    address ∈ event.loads
  | .storage address key => event.Answered (.storage address key) ∨
    event.answer.succeeded = true ∧
      (event.operation = .create address ∨ ∃ value, event.operation = .writeSlot address key value)

/-- Each kind of operation sends its own kind of queries. -/
structure Disciplined : Prop where
  storage : ∀ address key, .storage address key ∈ event.answer.queries →
    event.operation = .readSlot address key
  readSlot : ∀ address key, event.operation = .readSlot address key →
    event.answer.queries <+: [.storage address key]
  isAccountAlive : ∀ address, event.operation = .isAccountAlive address →
    event.answer.queries <+: [.nonce address, .codeHash address, .balance address]
  onlyWarms : event.operation.onlyWarms = true → event.answer.queries = []

end Event

theorem Fetch.prefix_andThen {α β : Type} {query : Query} {result : Except ε α}
    {next : α → Fetch ε β} {rest : List Query} (later : ∀ value, (next value).queries <+: rest) :
    ((Fetch.sent query result).andThen next).queries <+: query :: rest := by
  cases result with
  | error cause => exact List.prefix_append [query] rest
  | ok value => exact (List.prefix_cons_inj query).mpr (later value)

theorem Ledger.queries_prefix (answers : Answers ε) (question : Question) :
    (ofAnswers answers).queries question <+: question.parts := by
  cases question with
  | account address =>
    refine Fetch.prefix_andThen fun balance => ?_
    refine Fetch.prefix_andThen fun nonce => ?_
    refine Fetch.prefix_andThen fun code => ?_
    exact List.nil_prefix
  | isAlive address =>
    refine Fetch.prefix_andThen fun nonce => ?_
    split
    · exact List.nil_prefix
    refine Fetch.prefix_andThen fun codeHash => ?_
    split
    · exact List.nil_prefix
    refine Fetch.prefix_andThen fun balance => ?_
    exact List.nil_prefix
  | storage address key => exact List.prefix_rfl

namespace Cache

def unsettled (cache : Cache) : Query → Bool
  | .nonce address | .codeHash address | .balance address | .code address =>
    cache.lacks (.account address)
  | .storage address key => cache.lacks (.storage address key)

theorem unsettled_of_mem_parts (cache : Cache) {question : Question} {query : Query}
    (part : query ∈ question.parts) : cache.unsettled query = cache.lacks question := by
  cases question <;> simp only [Question.parts, List.mem_cons, List.not_mem_nil, or_false] at part
  case account => rcases part with rfl | rfl | rfl <;> rfl
  case isAlive => rcases part with rfl | rfl | rfl <;> rfl
  case storage => rw [part, unsettled]

theorem unsettled_of_moves {ledger : Ledger ε} {before after : Cache}
    (moves : Moves ledger before after) {query : Query}
    (settled : before.unsettled query = false) : after.unsettled query = false := by
  apply Bool.eq_false_iff.mpr
  intro unsettled
  cases query <;> exact absurd (moves.lacks unsettled) (Bool.eq_false_iff.mp settled)

theorem lacks_setEntry_both (cache : Cache) {sender recipient address : Address}
    {payer payee : Account} (loaded : payer.status.loaded = true)
    (loaded' : payee.status.loaded = true) (either : address = sender ∨ address = recipient) :
    ((cache.setEntry sender payer).setEntry recipient payee).lacks (.account address) = false := by
  rw [lacks_account, entry_setEntry]
  split
  · simp [loaded']
  · next other =>
    rw [either.resolve_right (Ne.symm other), entry_setEntry_self]
    simp [loaded]

end Cache

namespace Operation

variable {context : Context ε} (cache : Cache) (operation : Operation)

theorem readSlot_of_mem_questions (ledger : Ledger ε) {address : Address} {key : Word}
    (asked : .storage address key ∈ operation.questions ledger cache) :
    operation = .readSlot address key := by
  cases operation with
  | readSlot other key' =>
    obtain ⟨-, same⟩ := cache.mem_asks.mp asked
    cases same
    rfl
  | transfer sender recipient value =>
    simp only [questions, List.mem_append] at asked
    rcases asked with asked | asked
    · exact absurd (cache.mem_asks.mp asked).2 (by simp)
    · split at asked
      · exact absurd ((Cache.mem_asks _).mp asked).2 (by simp)
      · cases asked
  | emit | warmAddress | warmSlot | accountCost | storageCost | preload | preloadPrecompiles =>
    cases asked
  | _ => exact absurd (cache.mem_asks.mp asked).2 (by simp)

section Recorded

variable (recorded : ∃ answers, context.ledger = .ofAnswers answers)

include recorded

/-- Every query of a step is part of a question that the cache could not answer. -/
theorem exists_question {query : Query}
    (sent : query ∈ (operation.perform context cache).queries) :
    ∃ question ∈ operation.questions context.ledger cache, query ∈ question.parts := by
  obtain ⟨answers, same⟩ := recorded
  rw [queries_perform] at sent
  obtain ⟨question, asked, part⟩ := List.mem_flatMap.mp sent
  rw [same] at part
  exact ⟨question, asked, (Ledger.queries_prefix answers question).subset part⟩

theorem prefix_parts {question : Question}
    (single : operation.questions context.ledger cache = cache.asks question) :
    (operation.perform context cache).queries <+: question.parts := by
  obtain ⟨answers, same⟩ := recorded
  rw [queries_perform, single, Cache.queries_asks, same]
  split
  · exact Ledger.queries_prefix answers question
  · exact List.nil_prefix

theorem unsettled_of_sent {query : Query}
    (sent : query ∈ (operation.perform context cache).queries) : cache.unsettled query = true := by
  obtain ⟨question, asked, part⟩ := operation.exists_question cache recorded sent
  rw [cache.unsettled_of_mem_parts part]
  exact operation.lacks_of_mem_questions context.ledger cache asked

theorem disciplined : (operation.event context cache).Disciplined where
  storage address key sent := by
    obtain ⟨question, asked, part⟩ := operation.exists_question cache recorded sent
    have same : question = .storage address key := by
      cases question <;> simp_all [Question.parts]
    exact operation.readSlot_of_mem_questions cache context.ledger (same ▸ asked)
  readSlot address key same := by
    cases same
    exact (readSlot address key).prefix_parts cache recorded rfl
  isAccountAlive address same := by
    cases same
    exact (isAccountAlive address).prefix_parts cache recorded rfl
  onlyWarms warms := by
    cases operation <;> first | rfl | cases warms

end Recorded

section Loading

theorem targets_change {address : Address} {action : Account.Action}
    (changes : operation.change? = some (address, action)) : operation.targets = [address] := by
  cases operation <;> cases changes <;> rfl

variable {cache operation} {address : Address}

theorem mem_targets (loaded : address ∈ (operation.event context cache).loads) :
    address ∈ operation.targets :=
  List.takeWhile_subset _ loaded

theorem lacks_of_loads (loaded : address ∈ (operation.event context cache).loads) :
    (operation.perform context cache).cache.lacks (.account address) = false := by
  have target := mem_targets loaded
  simp only [event, Event.loads] at loaded
  cases operation.view with
  | change _ other action changes =>
    have outcome := operation.change_outcome context cache changes
    rw [targets_change operation changes] at loaded target
    cases List.mem_singleton.mp target
    generalize operation.perform context cache = step at outcome loaded ⊢
    cases outcome with
    | failed => simp [Step.answer, Answer.reached_unanswered] at loaded
    | performed info supplied account same =>
      have known : account.lacks (.account address) = false := by simp [same, Account.lacks]
      exact (congrArg (Account.lacks · _) (cache.entry_setEntry_self address _)).trans
        (account.lacks_perform _ action known)
  | load other =>
    cases List.mem_singleton.mp target
    have outcome := cache.load_outcome context.ledger address
    simp only [perform] at loaded ⊢
    generalize cache.load context.ledger address = step at outcome loaded ⊢
    cases outcome with
    | failed =>
      simp [targets, Step.answer, Step.map, Except.map, Answer.reached_unanswered] at loaded
    | answered info supplied => simp [Step.map]
  | transfer sender recipient value =>
    have outcome := cache.transfer_outcome context.ledger sender recipient value
    have either : address = sender ∨ address = recipient := by simpa [targets] using target
    simp only [perform] at loaded ⊢
    generalize cache.transfer context.ledger sender recipient value = step at outcome loaded ⊢
    cases outcome with
    | senderFailed =>
      simp [targets, Step.answer, Step.map, Except.map, Answer.reached_unanswered] at loaded
    | recipientFailed info supplied payer same =>
      -- The sender was reached before the recipient failed, and only the sender.
      have hit : address = sender := by
        simp only [targets, Step.answer, Step.map, Except.map, List.takeWhile_cons,
          Answer.reached_unanswered] at loaded
        split at loaded <;> simp_all
      simp [hit, same, Step.map]
    | unmoved info supplied payer same info' supplied' payee same' =>
      exact cache.lacks_setEntry_both (by simp [same]) (by simp [same']) either
    | moved info supplied payer same info' supplied' payee same' =>
      exact (cache.loadBoth sender recipient payer payee).lacks_setEntry_both rfl rfl either
  | _ => cases loaded

end Loading

section Settling

variable {cache operation} {address : Address} {key : Word}

theorem lacks_of_change (action : Account.Action) {question : Question}
    (changes : operation.change? = some (question.address, action))
    (succeeded : (operation.event context cache).answer.succeeded = true)
    (known : ∀ account : Account, (account.perform action).2.lacks question = false) :
    (operation.perform context cache).cache.lacks question = false := by
  have outcome := operation.change_outcome context cache changes
  simp only [event] at succeeded
  generalize operation.perform context cache = step at outcome succeeded ⊢
  cases outcome with
  | failed => cases succeeded
  | performed info supplied account =>
    exact (congrArg (Account.lacks · _) (cache.entry_setEntry_self _ _)).trans (known account)

theorem lacks_of_settles (recorded : ∃ answers, context.ledger = .ofAnswers answers)
    (settles : (operation.event context cache).Settles (.storage address key)) :
    (operation.perform context cache).cache.lacks (.storage address key) = false := by
  rcases settles with ⟨sent, answered⟩ | ⟨succeeded, created | ⟨value, written⟩⟩
  · have read : operation = .readSlot address key :=
      (operation.disciplined cache recorded).storage address key sent
    subst read
    have outcome := cache.readSlot_outcome context.ledger address key
    simp only [event, perform] at sent answered ⊢
    generalize cache.readSlot context.ledger address key = step at outcome sent ⊢
    cases outcome with
    | known => cases sent
    | fetched value unknown filled => simp [Step.map, Account.current?_editSlot, Slot.recordFetch]
    | failed cause unknown plain failure =>
      exact absurd answered (by simp [Ledger.Elementary.cause?, Fetch.cause?_of_error failure])
  · cases created
    exact lacks_of_change .create rfl succeeded fun account => rfl
  · cases written
    refine lacks_of_change (.writeSlot key value) rfl succeeded fun account => ?_
    simp [Account.lacks, Account.perform, Account.current?, Account.slot?_writeSlot,
      Slot.recordWrite]

theorem unsettled_of_settles (recorded : ∃ answers, context.ledger = .ofAnswers answers)
    {query : Query} (settles : (operation.event context cache).Settles query) :
    (operation.perform context cache).cache.unsettled query = false := by
  cases query with
  | storage address key => exact lacks_of_settles recorded settles
  | nonce | codeHash | balance | code => exact lacks_of_loads settles

end Settling

end Operation

namespace Trace

variable {past : List (Event ε)} {cache : Cache}

theorem settled (trace : Trace past cache) (recorded : ∀ event ∈ past, event.Recorded) :
    ∀ event ∈ past, ∀ query, event.Settles query → cache.unsettled query = false := by
  induction trace with
  | new => simp
  | step before context operation ih =>
    intro event member query settles
    rcases List.mem_append.mp member with old | new
    · have known := ih (fun event old => recorded event (List.mem_append_left _ old)) event old
        query settles
      exact Cache.unsettled_of_moves (operation.moves_perform context _) known
    · cases List.mem_singleton.mp new
      exact Operation.unsettled_of_settles (recorded _ member) settles

/-- Over any history, whatever fails in between, no step sends a query that an earlier one settled,
and every step sends queries of its own kind only. -/
theorem fetch_discipline (trace : Trace past cache) (recorded : ∀ event ∈ past, event.Recorded) :
    (∀ event ∈ past, event.Disciplined) ∧
      past.Pairwise fun earlier later =>
        ∀ query, earlier.Settles query → query ∉ later.answer.queries := by
  induction trace with
  | new => simp
  | @step past cache before context operation ih =>
    have earlier : ∀ event ∈ past, event.Recorded := fun event old =>
      recorded event (List.mem_append_left _ old)
    have latest : (operation.event context cache).Recorded := recorded _ (by simp)
    obtain ⟨disciplined, ordered⟩ := ih earlier
    constructor
    · intro event member
      rcases List.mem_append.mp member with old | new
      · exact disciplined event old
      · cases List.mem_singleton.mp new
        exact operation.disciplined cache latest
    · refine List.pairwise_append.mpr ⟨ordered, List.pairwise_singleton _ _, ?_⟩
      intro event old other new query settles sent
      cases List.mem_singleton.mp new
      -- A query is sent only while the cache leaves it to the ledger.
      have unsettled := operation.unsettled_of_sent cache latest sent
      exact absurd unsettled (Bool.eq_false_iff.mp (before.settled earlier event old query settles))

/-- A load that gets no code has settled nothing, so the next one sends all its queries again. The
change after it sends none. -/
theorem fetch_discipline_after_outage :
    let address := FixedBytes.ofNat 20 1
    let outage : Ledger.Answers Unit :=
      { nonce := fun _ => .ok 0
        codeHash := fun _ => .ok emptyCodeHash
        balance := fun _ => .ok 7
        code := fun _ => .error ()
        storage := fun _ _ => .ok none }
    let restored : Ledger.Answers Unit := { outage with code := fun _ => .ok [] }
    let failed := ((Operation.load address).perform ⟨.ofAnswers outage, {}⟩ {}).cache
    let loaded := ((Operation.load address).perform ⟨.ofAnswers restored, {}⟩ failed).cache
    let first := (Operation.load address).event ⟨.ofAnswers outage, {}⟩ {}
    let second := (Operation.load address).event ⟨.ofAnswers restored, {}⟩ failed
    let third := (Operation.setBalance address 3).event ⟨.ofAnswers restored, {}⟩ loaded
    .balance address ∈ first.answer.queries ∧ ¬ first.Settles (.balance address) ∧
      .balance address ∈ second.answer.queries ∧ second.Settles (.balance address) ∧
        .balance address ∉ third.answer.queries := by
  intro address outage restored failed loaded first second third
  have trace : Trace ([] ++ [first] ++ [second] ++ [third]) _ :=
    ((Trace.new.step ⟨.ofAnswers outage, {}⟩ (.load address)).step ⟨.ofAnswers restored, {}⟩
      (.load address)).step ⟨.ofAnswers restored, {}⟩ (.setBalance address 3)
  have recorded : ∀ event ∈ [] ++ [first] ++ [second] ++ [third], event.Recorded := by
    intro event member
    simp only [List.nil_append, List.mem_append, List.mem_singleton] at member
    rcases member with (rfl | rfl) | rfl <;> exact ⟨_, rfl⟩
  have settled : second.Settles (.balance address) := List.mem_singleton_self address
  have ordered := (List.pairwise_append.mp (trace.fetch_discipline recorded).2).2.2
  refine ⟨by decide, ?_, by decide, settled, ?_⟩
  · exact List.not_mem_nil
  · exact ordered second (by simp) third (by simp) _ settled

end Trace

end Overlay
