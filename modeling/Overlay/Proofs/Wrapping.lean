import Mathlib.Logic.Function.Basic
import Overlay.Proofs.Coherence

/-!
A ledger in memory may be put into sums, one inside another. A sum passes the elementary questions
on and composes the rest itself: it gathers an info and hashes the code again, where the ledger
hands out what it has stored. As long as everything that was ever inserted carries the hash of its
code, the two are the same ledger, and no run can tell them apart.
-/

set_option autoImplicit false

namespace Overlay

variable {ε : Type}

theorem Info.ofCode_of_coherent {info : Info} (coherent : info.Coherent) :
    ofCode info.balance info.nonce info.code = info := by
  rw [ofCode, ← coherent]

namespace Ledger

/-- The ledgers that are a given one inside any number of sums, on either side of each. -/
inductive Wraps (ledger : Ledger ε) : Ledger ε → Prop where
  | bare : Wraps ledger ledger
  | left {wrapper : Ledger ε} (inside : Wraps ledger wrapper) :
      Wraps ledger (ofSum (.inl wrapper))
  | right {wrapper : Ledger ε} (inside : Wraps ledger wrapper) :
      Wraps ledger (ofSum (.inr wrapper))

theorem Wraps.eq_of_composed {ledger wrapper : Ledger ε} (wraps : ledger.Wraps wrapper)
    (composed : ofElementary ledger.toElementary = ledger) : wrapper = ledger := by
  induction wraps with
  | bare => rfl
  | left inside same | right inside same =>
    subst same
    exact composed

end Ledger

theorem MemoryLedger.Filled.composed {memory : MemoryLedger} (filled : memory.Filled) :
    Ledger.ofElementary (memory.toLedger : Ledger ε).toElementary = memory.toLedger := by
  have gathered : (memory.toLedger : Ledger ε).gather =
      fun address => .known (memory.record address).info := by
    funext address
    exact congrArg Fetch.known (Info.ofCode_of_coherent (filled.coherent address))
  exact congrArg (Ledger.mk (memory.toLedger : Ledger ε).toElementary ·
    (memory.toLedger : Ledger ε).isAlive) gathered

/-! ## Sessions -/

/-- Several caches over one ledger, each under a number. -/
abbrev Session := Nat → Option Cache

namespace Session

/-- All that can be done with them. A child is used up when it is committed. -/
inductive Step where
  | new (target : Nat)
  | perform (target : Nat) (config : Config) (operation : Operation)
  | fork (parent target : Nat)
  | commit (parent child : Nat)
  | drop (target : Nat)
  | takeOutput (target : Nat)
  deriving DecidableEq

inductive Reply (ε : Type) where
  | done
  /-- There is no cache under the number. -/
  | missing
  | answered (answer : Answer ε Overlay.Reply)
  | output (output : Output)

def step (ledger : Ledger ε) (session : Session) : Step → Reply ε × Session
  | .new target => (.done, Function.update session target (some {}))
  | .perform target config operation =>
    match session target with
    | none => (.missing, session)
    | some cache =>
      let step := operation.perform ⟨ledger, config⟩ cache
      (.answered step.answer, Function.update session target (some step.cache))
  | .fork parent target =>
    match session parent with
    | none => (.missing, session)
    | some cache => (.done, Function.update session target (some cache.fork))
  | .commit parent child =>
    match session parent, session child with
    | some waiting, some ended =>
      (.done, Function.update (Function.update session child none) parent
        (some (waiting.commit ended)))
    | _, _ => (.missing, session)
  | .drop target => (.done, Function.update session target none)
  | .takeOutput target =>
    match session target with
    | none => (.missing, session)
    | some cache =>
      let (output, after) := cache.takeOutput
      (.output output, Function.update session target (some after))

def run (ledger : Ledger ε) : List Step → Session → List (Reply ε × Session)
  | [], _ => []
  | step :: rest, session =>
    let outcome := session.step ledger step
    outcome :: run ledger rest outcome.2

/-- A session over a ledger that was filled in memory goes the same way, reply by reply and cache by
cache, over whatever the ledger is wrapped in. -/
theorem run_wrapped {memory : MemoryLedger} (filled : memory.Filled) {wrapper : Ledger ε}
    (wraps : memory.toLedger.Wraps wrapper) (steps : List Step) (session : Session) :
    run wrapper steps session = run memory.toLedger steps session := by
  rw [wraps.eq_of_composed filled.composed]

/-- An account that has only storage, and one whose info was replaced after its storage was set. -/
theorem run_wrapped_twice :
    let bare := FixedBytes.ofNat 20 1
    let coded := FixedBytes.ofNat 20 2
    let memory := (((MemoryLedger.insertStorage {} bare 1 7).insertStorage coded 1 8).insertAccount
      coded 3 [0x60] 5).insertInfo coded (Info.ofBalance 6)
    let wrapper : Ledger Unit := .ofSum (.inr (.ofSum (.inl memory.toLedger)))
    let steps : List Step := [.new 0, .perform 0 {} (.load bare), .fork 0 1,
      .perform 1 {} (.readSlot coded 1), .perform 1 {} (.setCode coded [0xfe]), .commit 0 1,
      .takeOutput 0]
    (run wrapper steps fun _ => none) = (run memory.toLedger steps fun _ => none) ∧
      ((run wrapper steps fun _ => none)[3]?).map Prod.fst =
        some (.answered ⟨.ok (.value ⟨8, true⟩), []⟩) := by
  intro bare coded memory wrapper steps
  have filled : memory.Filled :=
    .insertInfo (.insertAccount (.insertStorage (.insertStorage .new bare 1 7) coded 1 8) coded 3
      [0x60] 5) coded (.ofBalance 6)
  have wraps : memory.toLedger.Wraps wrapper := .right (.left .bare)
  have same := run_wrapped filled wraps steps fun _ => none
  refine ⟨same, ?_⟩
  rw [same]
  rfl

end Session

end Overlay
