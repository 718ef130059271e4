import Lctools.Foundation.CString
import Lctools.Foundation.Fallible
import Lctools.Foundation.HashTable
import Lctools.Foundation.Ref
import Lctools.Foundation.Run

/-! # `utils/redis/redis_opt.c`

The globals of the redis client and the calls that make, use and free them. The
arguments of the log macros, which come from outside the repository, are left out.
What the threads of the subscriptions do is no part of this model.
-/

namespace Lctools.Redis

open CString Fallible

/-! ## Data -/

def subOk : ℤ := 0
def subErr : ℤ := -1
def channelNameLen : ℕ := 128
def defineIpLen : ℕ := 16
def funcMaxCount : ℕ := 50

inductive Global where
  | redisConnInfo
  | redisConnHd
  | subHash
  deriving DecidableEq, Repr

inductive Fault where
  | pointer (global : Global) (fault : RefFault)
  /-- A text that is used as a format asks for an argument. -/
  | format
  deriving DecidableEq, Repr

structure RedisConnInfo where
  host : List Char
  port : ℕ
  deriving DecidableEq, Repr

variable {φ : Type}

/-- `sub_msg_t`. Threads and connections are numbered in the order in which they are
made; `messageFunc` has the first `size` functions of the array. -/
structure SubMsg (φ : Type) where
  pt : ℕ
  c : ℕ
  channelName : List Char
  messageFunc : List φ

/-- The globals, the numbers of connections and threads made so far, and the
subscriptions that `sub_value_destroy` was called for. -/
structure RedisState (φ : Type) where
  redisConnInfo : Ref RedisConnInfo
  redisConnHd : Ref ℕ
  subHash : Ref (List (List Char × SubMsg φ))
  connections : ℕ
  threads : ℕ
  destroyed : List (SubMsg φ)

def RedisState.start : RedisState φ where
  redisConnInfo := .null
  redisConnHd := .null
  subHash := .null
  connections := 0
  threads := 0
  destroyed := []

/-! ## The program -/

/-- What a text comes to as a format without arguments. -/
def formatText : List Char → Option (List Char)
  | [] => some []
  | '%' :: '%' :: rest => (formatText rest).map ('%' :: ·)
  | '%' :: _ => none
  | c :: rest => (formatText rest).map (c :: ·)

/-- `snprintf(buffer, size, format)`. -/
def snprintfFormat (size : ℕ) (format : List Char) : Except Fault (List Char) :=
  match formatText format with
  | some formatted => .ok (snprintf size formatted)
  | none => .error .format

def follow {α : Type} (global : Global) (ref : Ref α) : Except Fault α :=
  (ref.deref).mapError (.pointer global)

def release {α : Type} (global : Global) (ref : Ref α) : Except Fault (Ref α) :=
  (ref.free).mapError (.pointer global)

/-- `init_redis_conn`; `connects` says whether the server was reached. A table of an
earlier attempt is lost. -/
def initRedisConn (host : List Char) (port : ℕ) (connects : Bool) (state : RedisState φ) :
    Except Fault (ℤ × RedisState φ) := do
  if !state.redisConnInfo.isNull then .ok (subOk, state)
  else
    let host ← snprintfFormat defineIpLen host
    let state := { state with
      redisConnInfo := .live ⟨host, port⟩
      subHash := .live []
      redisConnHd := .live state.connections
      connections := state.connections + 1 }
    if connects then .ok (subOk, state)
    else .ok (subErr, { state with redisConnInfo := .null, redisConnHd := .freed })

/-- `g_hash_table_lookup(sub_hash, channel_name)`, which finds nothing in NULL. -/
def lookupSub (subHash : Ref (List (List Char × SubMsg φ))) (channelName : List Char) :
    Except Fault (Option (SubMsg φ)) := do
  if subHash.isNull then .ok none
  else
    let table ← follow .subHash subHash
    .ok (HashTable.lookup (fun key => key) channelName table)

/-- A change of the subscription that the table has for a key. -/
def updateSub (channelName : List Char) (subMsg : SubMsg φ) (state : RedisState φ) :
    Except Fault (RedisState φ) := do
  let table ← follow .subHash state.subHash
  .ok { state with
    subHash := .live (HashTable.insert (fun key => key) channelName subMsg table) }

/-- `g_hash_table_insert(sub_hash, key, sub_msg)`: a subscription with an equal key is
destroyed. NULL is left alone. -/
def insertSub (key : List Char) (subMsg : SubMsg φ) (state : RedisState φ) :
    Except Fault (RedisState φ) := do
  if state.subHash.isNull then .ok state
  else
    let table ← follow .subHash state.subHash
    .ok { state with
      subHash := .live (HashTable.insert (fun key => key) key subMsg table)
      destroyed := (HashTable.lookup (fun key => key) key table).toList ++ state.destroyed }

/-- What `init_subscribe` meets: whether the server was reached, and whether a thread
could be created. -/
structure SubscribeAnswers where
  connects : Bool
  creates : Bool
  deriving DecidableEq, Repr

def initSubscribe (channelName : List Char) (func : φ) (answers : SubscribeAnswers)
    (state : RedisState φ) : Except Fault (ℤ × RedisState φ) := do
  match ← lookupSub state.subHash channelName with
  | some subMsg =>
      if funcMaxCount ≤ subMsg.messageFunc.length then .ok (subErr, state)
      else
        let state ← updateSub channelName
          { subMsg with messageFunc := subMsg.messageFunc ++ [func] } state
        .ok (subOk, state)
  | none =>
      let _ ← follow .redisConnInfo state.redisConnInfo
      let c := state.connections
      let state := { state with connections := state.connections + 1 }
      if !answers.connects then .ok (subErr, state)
      else
        let key ← snprintfFormat channelNameLen channelName
        if !answers.creates then .ok (subErr, state)
        else
          let subMsg := ⟨state.threads, c, channelName, [func]⟩
          let state ← insertSub key subMsg { state with threads := state.threads + 1 }
          .ok (subOk, state)

/-- `set_ttl_key`; `none` is NULL. Its two commands use the same connection. -/
def setTtlKey (dataKey dataValue : Option (List Char)) (state : RedisState φ) :
    Except Fault ℤ := do
  if dataKey.isNone || dataValue.isNone then .ok (-1)
  else
    let _ ← follow .redisConnHd state.redisConnHd
    .ok 0

/-- `unsubscribe` for each key of the table. -/
def unsubscribeAll (redisConnHd : Ref ℕ) : List (List Char × SubMsg φ) → Except Fault Unit
  | [] => .ok ()
  | _ :: table => do
      if redisConnHd.isNull then unsubscribeAll redisConnHd table
      else
        let _ ← follow .redisConnHd redisConnHd
        unsubscribeAll redisConnHd table

def destoryRedisConn (state : RedisState φ) : Except Fault (RedisState φ) := do
  let table ← follow .subHash state.subHash
  unsubscribeAll state.redisConnHd table
  let redisConnHd ← release .redisConnHd state.redisConnHd
  let redisConnInfo ← release .redisConnInfo state.redisConnInfo
  .ok { state with
    subHash := .null
    redisConnHd := redisConnHd
    redisConnInfo := redisConnInfo
    destroyed := table.map Prod.snd ++ state.destroyed }

/-! ## Runs -/

inductive Call (φ : Type) where
  | init (host : List Char) (port : ℕ) (connects : Bool)
  | subscribe (channelName : List Char) (func : φ) (answers : SubscribeAnswers)
  | setTtl (dataKey dataValue : Option (List Char)) (ttl : ℤ)
  | destroy

/-- The value a call returns, `none` for `void`. -/
def step (state : RedisState φ) : Call φ → Except Fault (Option ℤ × RedisState φ)
  | .init host port connects => do
      let (ret, state) ← initRedisConn host port connects state
      .ok (some ret, state)
  | .subscribe channelName func answers => do
      let (ret, state) ← initSubscribe channelName func answers state
      .ok (some ret, state)
  | .setTtl dataKey dataValue _ => do
      let ret ← setTtlKey dataKey dataValue state
      .ok (some ret, state)
  | .destroy => do
      let state ← destoryRedisConn state
      .ok (none, state)

/-- The three globals refer to objects that are there. -/
structure Live (state : RedisState φ) : Prop where
  info : ∃ info, state.redisConnInfo = .live info
  handle : ∃ c, state.redisConnHd = .live c
  table : ∃ table, state.subHash = .live table

/-- No call of a run follows or frees a pointer to an object that is not there. -/
def NoPointerFault (state : RedisState φ) (calls : List (Call φ)) : Prop :=
  ∀ global fault, run step state calls ≠ .error (.pointer global fault)

/-- Whenever `init_redis_conn` returns `SUB_OK`, the globals refer to objects that are
there, and the calls that follow never use one of them otherwise. A format that asks for an
argument may do anything, so no call has one. -/
structure LifecycleSafe (state : RedisState φ) (calls : List (Call φ)) : Prop where
  opened : ∀ (before : List (Call φ)) (host : List Char) (port : ℕ) (connects : Bool)
    (after : List (Call φ)) (replies : List (Option ℤ)) (reached next : RedisState φ),
    calls = before ++ .init host port connects :: after →
    run step state before = .ok (replies, reached) →
    step reached (.init host port connects) = .ok (some subOk, next) →
    Live next ∧ NoPointerFault next after
  formatted : run step state calls ≠ .error .format

/-! ## The property along a run -/

/-- The text that a call hands to `snprintf` as its format: the address of the server, or
the name of a channel that is not in the table yet. -/
def Call.format (state : RedisState φ) : Call φ → Option (List Char)
  | .init host _ _ => if state.redisConnInfo.isNull then some host else none
  | .subscribe channelName _ answers =>
      match state.redisConnInfo, state.subHash with
      | .live _, .live table =>
          if answers.connects ∧ (HashTable.lookup (fun key => key) channelName table).isNone then
            some channelName
          else
            none
      | _, _ => none
  | _ => none

end Lctools.Redis
