import Overlay.Account

/-! The changes that one account can go through, each with what it answers. -/

set_option autoImplicit false

namespace Overlay.Account

inductive Action where
  | load (info : Info)
  | setBalance (balance : Word)
  | setNonce (nonce : UInt64)
  | incNonce
  | setCode (code : Bytes)
  | create
  | selfDestruct
  | warmSlot (key : Word)
  | preloadSlot (key : Word)
  | recordFetch (key fetched : Word)
  | readKnown (key : Word)
  | writeSlot (key value : Word)
  deriving DecidableEq

inductive Reply where
  | done
  /-- The new nonce; none if it would overflow. -/
  | nonce (nonce : Option UInt64)
  | nonceDecreased
  /-- Whether the slot was warm before. -/
  | wasWarm (warm : Bool)
  /-- The current value of the slot, if it is known. -/
  | value (value : Option Word)
  deriving DecidableEq

def perform (account : Account) : Action → Reply × Account
  | .load info => (.done, account.load info)
  | .setBalance balance => (.done, account.setBalance balance)
  | .setNonce nonce =>
    match account.setNonce? nonce with
    | some changed => (.done, changed)
    | none => (.nonceDecreased, account)
  | .incNonce =>
    match account.incNonce? with
    | some changed => (.nonce (some changed.info.nonce), changed)
    | none => (.nonce none, account)
  | .setCode code => (.done, account.setCode code)
  | .create => (.done, account.create)
  | .selfDestruct => (.done, account.selfDestruct)
  | .warmSlot key => (.wasWarm (account.isSlotWarm key), account.warmSlot key)
  | .preloadSlot key => (.wasWarm (account.isSlotWarm key), account.preloadSlot key)
  | .recordFetch key fetched =>
    let recorded := account.recordFetch key fetched
    (.value (some ((recorded.current? key).getD fetched)), recorded)
  | .readKnown key =>
    match account.readKnown? key with
    | some (value, read) => (.value (some value), read)
    | none => (.value none, account)
  | .writeSlot key value => (.wasWarm (account.isSlotWarm key), account.writeSlot key value)

end Overlay.Account
