import Lctools.Redis.Conn

/-! # Subscriptions of many channels

The table looks a channel up under the name the caller gives and enters it under the
text that name comes to as a format, cut to the size of a key.
-/

namespace Lctools.Redis

open CString Fallible

variable {φ : Type}

/-! ## The registry -/

/-- A call of `init_subscribe` for which the connection and the thread are made. -/
def subscription (call : List Char × φ) : Call φ :=
  .subscribe call.1 call.2 ⟨true, true⟩

/-- The functions that were registered for a channel, in the order of the calls. -/
def functionsFor (name : List Char) (calls : List (List Char × φ)) : List φ :=
  (calls.filter fun call => call.1 = name).map Prod.snd

def entryOf (state : RedisState φ) (name : List Char) : Option (SubMsg φ) :=
  match state.subHash with
  | .live table => HashTable.lookup (fun key => key) name table
  | _ => none

/-- The entry of each channel has the first functions that were registered for it. -/
structure Entries (calls : List (List Char × φ)) (state : RedisState φ) : Prop where
  subscribed : ∀ name ∈ calls.map Prod.fst, ∃ subMsg, entryOf state name = some subMsg ∧
    subMsg.channelName = name ∧
    subMsg.messageFunc = (functionsFor name calls).take funcMaxCount
  others : ∀ name ∉ calls.map Prod.fst, entryOf state name = none

/-- What the calls should have left since `init_redis_conn` made the table. -/
structure Registry (opened : RedisState φ) (calls : List (List Char × φ))
    (reached : RedisState φ) (table : List (List Char × SubMsg φ)) : Prop where
  info : reached.redisConnInfo = opened.redisConnInfo
  live : reached.subHash = .live table
  keys : (table.map Prod.fst).Nodup
  entries : Entries calls reached
  /-- Each entry has its own connection and its own thread, and no others were made. -/
  ownConnection : table.map (fun entry => entry.2.c) =
    List.range' opened.connections table.length
  connections : reached.connections = opened.connections + table.length
  ownThread : table.map (fun entry => entry.2.pt) = List.range' opened.threads table.length
  threads : reached.threads = opened.threads + table.length
  destroyed : reached.destroyed = opened.destroyed

/-- What the next call should do: past the last place of the array it is refused and
changes nothing, and it never touches another channel. -/
structure Registers (calls : List (List Char × φ)) (reached : RedisState φ)
    (name : List Char) (reply : Option ℤ) (next : RedisState φ) : Prop where
  accepted : (functionsFor name calls).length < funcMaxCount → reply = some subOk
  refused : funcMaxCount ≤ (functionsFor name calls).length → reply = some subErr ∧ next = reached
  others : ∀ other, other ≠ name → entryOf next other = entryOf reached other

/-- Every call of the run finds and leaves the registry as it should. -/
def RegistryKept (opened : RedisState φ) (calls : List (List Char × φ)) : Prop :=
  ∀ before after, calls = before ++ after →
    ∃ replies reached table,
      run step opened (before.map subscription) = .ok (replies, reached) ∧
      Registry opened before reached table ∧
      ∀ name func rest, after = (name, func) :: rest →
        ∃ reply next, step reached (subscription (name, func)) = .ok (reply, next) ∧
          Registers before reached name reply next

/-- The name of a channel that is its own key. -/
def PlainName (name : List Char) : Prop :=
  name.length < channelNameLen ∧ '%' ∉ name

instance (name : List Char) : Decidable (PlainName name) :=
  inferInstanceAs (Decidable (_ ∧ _))

/-! ## Keys -/

theorem formatText_of_plain {name : List Char} (plain : '%' ∉ name) :
    formatText name = some name := by
  induction name with
  | nil => rfl
  | cons head tail induction =>
      rw [List.mem_cons, not_or] at plain
      rw [formatText, induction plain.2]
      · rfl
      · intro rest same
        exact absurd same.symm plain.1
      · intro same
        exact absurd same.symm plain.1

theorem formatText_length {name formatted : List Char}
    (formats : formatText name = some formatted) :
    formatted.length ≤ name.length ∧ ('%' ∈ name → formatted.length < name.length) := by
  induction name using formatText.induct generalizing formatted with
  | case1 =>
      cases formats
      simp
  | case2 rest induction =>
      rw [formatText, Option.map_eq_some_iff] at formats
      rcases formats with ⟨inner, formats, rfl⟩
      have shorter := (induction formats).1
      simp only [List.length_cons]
      omega
  | case3 rest single =>
      rw [formatText] at formats
      · cases formats
      · exact single
  | case4 c rest double single induction =>
      rw [formatText] at formats
      · rw [Option.map_eq_some_iff] at formats
        rcases formats with ⟨inner, formats, rfl⟩
        have shorter := induction formats
        simp only [List.length_cons, List.mem_cons, Nat.add_le_add_iff_right,
          Nat.add_lt_add_iff_right]
        refine ⟨shorter.1, ?_⟩
        rintro (rfl | inside)
        · exact absurd rfl single
        · exact shorter.2 inside
      · exact double
      · exact single

theorem snprintfFormat_of_plain {name : List Char} (plain : PlainName name) :
    snprintfFormat channelNameLen name = .ok name := by
  rw [snprintfFormat, formatText_of_plain plain.2]
  have fits : name.length ≤ channelNameLen - 1 := by
    have short := plain.1
    omega
  simp only [snprintf, List.take_of_length_le fits]

theorem snprintfFormat_ne {name key : List Char} (notPlain : ¬ PlainName name)
    (entered : snprintfFormat channelNameLen name = .ok key) : key ≠ name := by
  rintro rfl
  rw [snprintfFormat] at entered
  cases formats : formatText key with
  | none =>
      rw [formats] at entered
      cases entered
  | some formatted =>
      rw [formats] at entered
      simp only [Except.ok.injEq, snprintf] at entered
      have lengths := congrArg List.length entered
      rw [List.length_take] at lengths
      have shorter := formatText_length formats
      apply notPlain
      have positive : 0 < channelNameLen := by decide
      refine ⟨by omega, ?_⟩
      intro inside
      have lost := shorter.2 inside
      omega

/-! ## One call -/

section Step

variable {state : RedisState φ} {table : List (List Char × SubMsg φ)} {name : List Char}
  {func : φ} {subMsg : SubMsg φ}

theorem entryOf_live (live : state.subHash = .live table) (name : List Char) :
    entryOf state name = HashTable.lookup (fun key => key) name table := by
  rw [entryOf, live]

theorem lookupSub_live (live : state.subHash = .live table) (name : List Char) :
    lookupSub state.subHash name = .ok (entryOf state name) := by
  rw [entryOf_live live, live]
  rfl

theorem step_full (live : state.subHash = .live table) (found : entryOf state name = some subMsg)
    (full : funcMaxCount ≤ subMsg.messageFunc.length) :
    step state (subscription (name, func)) = .ok (some subErr, state) := by
  have returned : initSubscribe name func ⟨true, true⟩ state = .ok (subErr, state) := by
    rw [initSubscribe, bind_ok (lookupSub_live live name), found]
    exact if_pos full
  exact bind_ok returned _

theorem step_more (live : state.subHash = .live table) (found : entryOf state name = some subMsg)
    (room : subMsg.messageFunc.length < funcMaxCount) :
    step state (subscription (name, func)) = .ok (some subOk, { state with
      subHash := .live (HashTable.insert (fun key => key) name
        { subMsg with messageFunc := subMsg.messageFunc ++ [func] } table) }) := by
  have returned : initSubscribe name func ⟨true, true⟩ state = .ok (subOk, { state with
      subHash := .live (HashTable.insert (fun key => key) name
        { subMsg with messageFunc := subMsg.messageFunc ++ [func] } table) }) := by
    rw [initSubscribe, bind_ok (lookupSub_live live name), found]
    simp only
    rw [if_neg (Nat.not_le_of_lt room), updateSub, live]
    rfl
  exact bind_ok returned _

/-- The state after a subscription was entered under `key`. -/
def entered (key name : List Char) (func : φ) (table : List (List Char × SubMsg φ))
    (state : RedisState φ) : RedisState φ :=
  { state with
    subHash := .live (HashTable.insert (fun key => key) key
      ⟨state.threads, state.connections, name, [func]⟩ table)
    connections := state.connections + 1
    threads := state.threads + 1
    destroyed := (HashTable.lookup (fun key => key) key table).toList ++ state.destroyed }

theorem initSubscribe_absent {info : RedisConnInfo} (live : state.subHash = .live table)
    (connected : state.redisConnInfo = .live info) (absent : entryOf state name = none) :
    initSubscribe name func ⟨true, true⟩ state =
      (snprintfFormat channelNameLen name).map fun key =>
        (subOk, entered key name func table state) := by
  have followed : follow .redisConnInfo state.redisConnInfo = .ok info := by
    rw [connected]
    rfl
  rw [initSubscribe, bind_ok (lookupSub_live live name), absent]
  simp only
  rw [bind_ok followed]
  cases snprintfFormat channelNameLen name with
  | error fault => rfl
  | ok key =>
      simp only [Bool.not_true, Bool.false_eq_true, if_false, insertSub, live]
      rfl

theorem step_new {info : RedisConnInfo} {key : List Char} (live : state.subHash = .live table)
    (connected : state.redisConnInfo = .live info) (absent : entryOf state name = none)
    (formats : snprintfFormat channelNameLen name = .ok key) :
    step state (subscription (name, func)) =
      .ok (some subOk, entered key name func table state) := by
  have returned := @initSubscribe_absent φ state table name func info live connected absent
  rw [formats] at returned
  exact bind_ok returned _

theorem step_unformatted {info : RedisConnInfo} {fault : Fault}
    (live : state.subHash = .live table) (connected : state.redisConnInfo = .live info)
    (absent : entryOf state name = none)
    (formats : snprintfFormat channelNameLen name = .error fault) :
    step state (subscription (name, func)) = .error fault := by
  have returned := @initSubscribe_absent φ state table name func info live connected absent
  rw [formats] at returned
  exact bind_error returned _

end Step

/-! ## What a call with a plain name keeps -/

theorem functionsFor_append_same (name : List Char) (func : φ) (calls : List (List Char × φ)) :
    functionsFor name (calls ++ [(name, func)]) = functionsFor name calls ++ [func] := by
  simp [functionsFor]

theorem functionsFor_append_other {name other : List Char} (different : other ≠ name) (func : φ)
    (calls : List (List Char × φ)) :
    functionsFor other (calls ++ [(name, func)]) = functionsFor other calls := by
  simp [functionsFor, different.symm]

theorem functionsFor_absent {name : List Char} {calls : List (List Char × φ)}
    (absent : name ∉ calls.map Prod.fst) : functionsFor name calls = [] := by
  rw [functionsFor, List.map_eq_nil_iff, List.filter_eq_nil_iff]
  intro call member
  simp only [decide_eq_true_eq]
  rintro rfl
  exact absent (List.mem_map_of_mem member)

theorem Registry.empty {opened : RedisState φ} (live : opened.subHash = .live []) :
    Registry opened [] opened [] where
  info := rfl
  live := live
  keys := List.nodup_nil
  entries := {
    subscribed := by
      intro name member
      cases member
    others := by
      intro name _
      rw [entryOf_live live]
      rfl }
  ownConnection := rfl
  connections := rfl
  ownThread := rfl
  threads := rfl
  destroyed := rfl

section Keeps

variable {opened reached next : RedisState φ} {calls : List (List Char × φ)}
  {table : List (List Char × SubMsg φ)} {name : List Char} {subMsg : SubMsg φ}

theorem Entries.append {func : φ} (entries : Entries calls reached)
    (changed : ∀ other, entryOf next other =
      if name = other then some subMsg else entryOf reached other)
    (named : subMsg.channelName = name)
    (functions : subMsg.messageFunc = (functionsFor name calls ++ [func]).take funcMaxCount) :
    Entries (calls ++ [(name, func)]) next where
  subscribed := by
    intro other member
    rw [changed]
    by_cases same : name = other
    · subst same
      rw [if_pos rfl, functionsFor_append_same]
      exact ⟨subMsg, rfl, named, functions⟩
    · rw [if_neg same, functionsFor_append_other (Ne.symm same)]
      apply entries.subscribed
      simpa [Ne.symm same] using member
  others := by
    intro other absent
    rw [List.map_append, List.mem_append, not_or] at absent
    have different : name ≠ other := by
      rintro rfl
      exact absent.2 (List.mem_singleton_self _)
    rw [changed, if_neg different]
    exact entries.others other absent.1

theorem Registry.full (registry : Registry opened calls reached table)
    (found : entryOf reached name = some subMsg) (named : subMsg.channelName = name)
    (functions : subMsg.messageFunc = (functionsFor name calls).take funcMaxCount)
    (full : funcMaxCount ≤ (functionsFor name calls).length) (func : φ) :
    Registry opened (calls ++ [(name, func)]) reached table where
  info := registry.info
  live := registry.live
  keys := registry.keys
  entries := by
    apply registry.entries.append ?changed named
    · rw [functions, List.take_append_of_le_length full]
    · intro other
      split
      · next same => rw [← same, found]
      · rfl
  ownConnection := registry.ownConnection
  connections := registry.connections
  ownThread := registry.ownThread
  threads := registry.threads
  destroyed := registry.destroyed

theorem Registry.more (registry : Registry opened calls reached table)
    (found : entryOf reached name = some subMsg) (named : subMsg.channelName = name)
    (functions : subMsg.messageFunc = (functionsFor name calls).take funcMaxCount)
    (room : (functionsFor name calls).length < funcMaxCount) (func : φ) :
    Registry opened (calls ++ [(name, func)])
      { reached with subHash := .live (HashTable.insert (fun key => key) name
        { subMsg with messageFunc := subMsg.messageFunc ++ [func] } table) }
      (HashTable.insert (fun key => key) name
        { subMsg with messageFunc := subMsg.messageFunc ++ [func] } table) := by
  have present := found
  rw [entryOf_live registry.live] at present
  have kept {γ : Type} (view : SubMsg φ → γ)
      (same : view { subMsg with messageFunc := subMsg.messageFunc ++ [func] } = view subMsg) :=
    HashTable.map_insert_of_present (fun key => key) view present same
  have length : (HashTable.insert (fun key => key) name
      { subMsg with messageFunc := subMsg.messageFunc ++ [func] } table).length =
      table.length := by
    simpa using congrArg List.length (kept (fun _ => ()) rfl)
  have whole : subMsg.messageFunc = functionsFor name calls := by
    rw [functions, List.take_of_length_le (Nat.le_of_lt room)]
  exact {
    info := registry.info
    live := rfl
    keys := HashTable.nodup_insert (fun key => key) registry.keys name _
    entries := by
      apply registry.entries.append ?changed (show SubMsg.channelName
        { subMsg with messageFunc := subMsg.messageFunc ++ [func] } = name from named)
      · rw [whole, List.take_of_length_le]
        rw [List.length_append]
        exact room
      · intro other
        rw [entryOf_live rfl, HashTable.lookup_insert, entryOf_live registry.live]
    ownConnection := by
      rw [kept SubMsg.c rfl, length]
      exact registry.ownConnection
    connections := by
      rw [length]
      exact registry.connections
    ownThread := by
      rw [kept SubMsg.pt rfl, length]
      exact registry.ownThread
    threads := by
      rw [length]
      exact registry.threads
    destroyed := registry.destroyed }

theorem Registry.new (registry : Registry opened calls reached table)
    (absent : name ∉ calls.map Prod.fst) (func : φ) :
    Registry opened (calls ++ [(name, func)]) (entered name name func table reached)
      (HashTable.insert (fun key => key) name
        ⟨reached.threads, reached.connections, name, [func]⟩ table) := by
  have nothing := registry.entries.others name absent
  rw [entryOf_live registry.live] at nothing
  have appended := HashTable.insert_of_absent (fun key => key) nothing
    (SubMsg.mk reached.threads reached.connections name [func])
  have length : (HashTable.insert (fun key => key) name
      (SubMsg.mk reached.threads reached.connections name [func]) table).length =
      table.length + 1 := by
    rw [appended, List.length_append, List.length_singleton]
  exact {
    info := registry.info
    live := rfl
    keys := HashTable.nodup_insert (fun key => key) registry.keys name _
    entries := by
      apply registry.entries.append ?changed (show SubMsg.channelName
        (SubMsg.mk reached.threads reached.connections name [func]) = name from rfl)
      · rw [functionsFor_absent absent]
        rfl
      · intro other
        rw [entryOf_live rfl, HashTable.lookup_insert, entryOf_live registry.live]
    ownConnection := by
      rw [length, appended, List.map_append, registry.ownConnection, List.range'_concat,
        registry.connections, Nat.one_mul]
      rfl
    connections := by
      rw [length, ← Nat.add_assoc, ← registry.connections]
      rfl
    ownThread := by
      rw [length, appended, List.map_append, registry.ownThread, List.range'_concat,
        registry.threads, Nat.one_mul]
      rfl
    threads := by
      rw [length, ← Nat.add_assoc, ← registry.threads]
      rfl
    destroyed := by
      rw [entered, nothing]
      exact registry.destroyed }

theorem Registry.step {info : RedisConnInfo} (registry : Registry opened calls reached table)
    (connected : opened.redisConnInfo = .live info) (plain : PlainName name) (func : φ) :
    ∃ reply next table', Redis.step reached (subscription (name, func)) = .ok (reply, next) ∧
      Registry opened (calls ++ [(name, func)]) next table' ∧
      Registers calls reached name reply next := by
  by_cases member : name ∈ calls.map Prod.fst
  · rcases registry.entries.subscribed name member with ⟨subMsg, found, named, functions⟩
    have length : subMsg.messageFunc.length = min funcMaxCount (functionsFor name calls).length := by
      rw [functions, List.length_take]
    cases Nat.lt_or_ge (functionsFor name calls).length funcMaxCount with
    | inl room =>
        refine ⟨_, _, _, step_more registry.live found (by omega),
          registry.more found named functions room func, fun _ => rfl, fun full => by omega, ?_⟩
        intro other different
        rw [entryOf_live rfl, HashTable.lookup_insert, if_neg different.symm,
          entryOf_live registry.live]
    | inr full =>
        refine ⟨_, _, _, step_full registry.live found (by omega),
          registry.full found named functions full func, fun room => by omega,
          fun _ => ⟨rfl, rfl⟩, ?_⟩
        intro other _
        rfl
  · have nothing := registry.entries.others name member
    rw [← registry.info] at connected
    refine ⟨_, _, _, step_new registry.live connected nothing (snprintfFormat_of_plain plain),
      registry.new member func, fun _ => rfl, ?_, ?_⟩
    · intro full
      rw [functionsFor_absent member] at full
      cases full
    · intro other different
      rw [entryOf_live rfl, HashTable.lookup_insert, if_neg different.symm,
        entryOf_live registry.live]

/-- Any other name is entered where a lookup of it does not find it. -/
theorem Registry.not_step {info : RedisConnInfo} (registry : Registry opened calls reached table)
    (connected : opened.redisConnInfo = .live info) (plains : ∀ call ∈ calls, PlainName call.1)
    (notPlain : ¬ PlainName name) (func : φ) {reply : Option ℤ} {next : RedisState φ}
    (stepped : Redis.step reached (subscription (name, func)) = .ok (reply, next)) :
    entryOf next name = none := by
  have absent : name ∉ calls.map Prod.fst := by
    intro member
    rcases List.mem_map.mp member with ⟨call, inside, rfl⟩
    exact notPlain (plains call inside)
  have nothing := registry.entries.others name absent
  rw [← registry.info] at connected
  cases formats : snprintfFormat channelNameLen name with
  | error fault =>
      rw [step_unformatted registry.live connected nothing formats] at stepped
      cases stepped
  | ok key =>
      rw [step_new registry.live connected nothing formats] at stepped
      cases stepped
      rw [entryOf_live rfl, HashTable.lookup_insert, if_neg (snprintfFormat_ne notPlain formats),
        ← entryOf_live registry.live, nothing]

end Keeps

/-! ## Whole runs -/

section Runs

variable {opened : RedisState φ} {info : RedisConnInfo}

theorem run_subscription_append {calls : List (List Char × φ)} {call : List Char × φ}
    {replies : List (Option ℤ)} {reply : Option ℤ} (reached : RedisState φ) {next : RedisState φ}
    (ran : run step opened (calls.map subscription) = .ok (replies, reached))
    (stepped : step reached (subscription call) = .ok (reply, next)) :
    run step opened ((calls ++ [call]).map subscription) = .ok (replies ++ [reply], next) := by
  rw [List.map_append]
  exact Run.run_append_ok reached ran (Run.run_cons_ok next stepped rfl)

theorem registry_of_plain (live : opened.subHash = .live [])
    (connected : opened.redisConnInfo = .live info) (calls : List (List Char × φ))
    (plains : ∀ call ∈ calls, PlainName call.1) :
    ∃ replies reached table,
      run step opened (calls.map subscription) = .ok (replies, reached) ∧
      Registry opened calls reached table := by
  induction calls using List.reverseRecOn with
  | nil => exact ⟨[], opened, [], rfl, .empty live⟩
  | append_singleton calls call induction =>
      rw [List.forall_mem_append] at plains
      rcases induction plains.1 with ⟨replies, reached, table, ran, registry⟩
      rcases registry.step connected (plains.2 call (List.mem_singleton_self call)) call.2 with
        ⟨reply, next, table', stepped, after, _⟩
      exact ⟨replies ++ [reply], next, table', run_subscription_append reached ran stepped, after⟩

theorem registryKept_of_plain (live : opened.subHash = .live [])
    (connected : opened.redisConnInfo = .live info) (calls : List (List Char × φ))
    (plains : ∀ call ∈ calls, PlainName call.1) : RegistryKept opened calls := by
  intro before after split
  subst split
  rw [List.forall_mem_append] at plains
  rcases registry_of_plain live connected before plains.1 with
    ⟨replies, reached, table, ran, registry⟩
  refine ⟨replies, reached, table, ran, registry, ?_⟩
  intro name func rest split
  subst split
  rcases registry.step connected (plains.2 (name, func) (List.mem_cons_self ..)) func with
    ⟨reply, next, table', stepped, _, registers⟩
  exact ⟨reply, next, stepped, registers⟩

theorem RegistryKept.of_append {calls more : List (List Char × φ)}
    (kept : RegistryKept opened (calls ++ more)) : RegistryKept opened calls := by
  intro before after split
  rcases kept before (after ++ more) (by rw [split, List.append_assoc]) with
    ⟨replies, reached, table, ran, registry, following⟩
  refine ⟨replies, reached, table, ran, registry, ?_⟩
  intro name func rest split
  exact following name func (rest ++ more) (by rw [split, List.cons_append])

theorem plain_of_registryKept (connected : opened.redisConnInfo = .live info)
    (calls : List (List Char × φ)) (kept : RegistryKept opened calls) :
    ∀ call ∈ calls, PlainName call.1 := by
  induction calls using List.reverseRecOn with
  | nil => nofun
  | append_singleton calls call induction =>
      have plains := induction kept.of_append
      refine List.forall_mem_append.mpr ⟨plains, ?_⟩
      intro last member
      rw [List.mem_singleton] at member
      subst member
      by_contra notPlain
      rcases kept calls [last] rfl with ⟨replies, reached, table, ran, registry, following⟩
      rcases following last.1 last.2 [] rfl with ⟨reply, next, stepped, _⟩
      have lost := registry.not_step connected plains notPlain last.2 stepped
      rcases kept (calls ++ [last]) [] (by simp) with ⟨replies', reached', table', ran', after, _⟩
      rw [run_subscription_append reached ran stepped] at ran'
      cases ran'
      rcases after.entries.subscribed last.1 (by simp) with ⟨subMsg, found, _⟩
      rw [lost] at found
      cases found

theorem initRedisConn_opens {state : RedisState φ} {host : List Char} {port : ℕ}
    (unopened : state.redisConnInfo = .null)
    (opens : initRedisConn host port true state = .ok (subOk, opened)) :
    opened.subHash = .live [] ∧ ∃ info, opened.redisConnInfo = .live info := by
  rw [initRedisConn, unopened] at opens
  cases formats : snprintfFormat defineIpLen host with
  | error fault =>
      rw [formats] at opens
      cases opens
  | ok text =>
      rw [formats] at opens
      cases opens
      exact ⟨rfl, _, rfl⟩

end Runs

/-- After a successful `init_redis_conn` every call of `init_subscribe` keeps the registry
exactly if every name is shorter than a key and has no `%`. -/
theorem registryKept_iff_plain {state opened : RedisState φ} {host : List Char} {port : ℕ}
    (unopened : state.redisConnInfo = .null)
    (opens : initRedisConn host port true state = .ok (subOk, opened))
    (calls : List (List Char × φ)) :
    RegistryKept opened calls ↔ ∀ call ∈ calls, PlainName call.1 := by
  rcases initRedisConn_opens unopened opens with ⟨live, info, connected⟩
  constructor
  · exact plain_of_registryKept connected calls
  · exact registryKept_of_plain live connected calls

/-- The state after `init_redis_conn("h", 6379)` as the first call. -/
def openedFirst : RedisState ℕ where
  redisConnInfo := .live ⟨['h'], 6379⟩
  redisConnHd := .live 0
  subHash := .live []
  connections := 1
  threads := 0
  destroyed := []

theorem registryKept_news :
    RegistryKept openedFirst [(['n', 'e', 'w', 's'], 1), (['a'], 2), (['n', 'e', 'w', 's'], 3)] := by
  apply (registryKept_iff_plain (show RedisState.start.redisConnInfo = .null from rfl)
    (show initRedisConn ['h'] 6379 true .start = .ok (subOk, openedFirst) from rfl) _).mpr
  decide

/-- `"%%"` is entered as `"%"`, where the next call does not find it. -/
theorem not_registryKept_percent :
    initRedisConn ['h'] 6379 true .start = .ok (subOk, openedFirst) ∧
    ¬ RegistryKept openedFirst [(['%', '%'], 1), (['%', '%'], 2)] := by
  refine ⟨rfl, ?_⟩
  intro kept
  rcases kept [(['%', '%'], 1)] [(['%', '%'], 2)] rfl with
    ⟨replies, reached, table, ran, registry, _⟩
  cases ran
  rcases registry.entries.subscribed ['%', '%'] (List.mem_singleton_self _) with ⟨subMsg, found, _⟩
  cases found

end Lctools.Redis
