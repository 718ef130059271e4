import Lctools.Redis.Subscribe
import Mathlib.Data.List.Forall2

/-! # Messages of the subscriptions

The thread of a subscription, `subscribe_func`, takes the replies of the server and calls the
functions of its channel one after the other, while other threads register more of them.
-/

namespace Lctools.Redis

open Fallible

variable {φ : Type}

/-! ## The program -/

/-- `redisReply`: an array has the texts of its elements, NULL for those that are not strings. -/
inductive Reply where
  | array (elements : List (Option (List Char)))
  | other
  deriving DecidableEq, Repr

structure Message where
  channel : Option (List Char)
  text : List Char
  deriving DecidableEq, Repr

/-- The message of a reply of three elements with a text. -/
def Reply.message : Reply → Option Message
  | .array [_, channel, some text] => some ⟨channel, text⟩
  | _ => none

/-- The thread of a subscription: the message for which it calls the functions and the `i` of the
loop; and what came before, the messages with the number of functions there were, and the calls. -/
structure Listener (φ : Type) where
  current : Option (Message × ℕ)
  received : List (Message × ℕ)
  calls : List (Message × φ)

def Listener.start : Listener φ :=
  ⟨none, [], []⟩

structure Broker (φ : Type) where
  redis : RedisState φ
  listeners : List Char → Listener φ

/-- A thread calls `init_subscribe`; `redisGetReply` returns in the thread of a channel, with a
reply or an error; or this thread goes on in its loop over the functions. -/
inductive Event (φ : Type) where
  | subscribe (name : List Char) (func : φ)
  | reply (name : List Char) (answer : Option Reply)
  | advance (name : List Char)

namespace Listener

/-- A reply for which there is something to do starts the loop. -/
def receive (answer : Option Reply) (functions : List φ) (listener : Listener φ) : Listener φ :=
  match listener.current, answer.bind Reply.message with
  | none, some message =>
      { listener with
        current := some (message, 0)
        received := listener.received ++ [(message, functions.length)] }
  | _, _ => listener

/-- One turn of the loop, which reads the number of functions again. -/
def advance (functions : List φ) (listener : Listener φ) : Listener φ :=
  match listener.current with
  | some (message, i) =>
      match functions[i]? with
      | some func =>
          { listener with
            current := some (message, i + 1)
            calls := listener.calls ++ [(message, func)] }
      | none => { listener with current := none }
  | none => listener

end Listener

namespace Broker

/-- The thread of a channel does something with the functions of its entry, if it exists. -/
def listen (name : List Char) (act : List φ → Listener φ → Listener φ) (broker : Broker φ) :
    Broker φ :=
  match entryOf broker.redis name with
  | some subMsg =>
      { broker with listeners := fun other =>
          if other = name then act subMsg.messageFunc (broker.listeners other)
          else broker.listeners other }
  | none => broker

def step (broker : Broker φ) : Event φ → Except Fault (Unit × Broker φ)
  | .subscribe name func => do
      let (_, redis) ← Redis.step broker.redis (subscription (name, func))
      return ((), { broker with redis := redis })
  | .reply name answer => .ok ((), broker.listen name (Listener.receive answer))
  | .advance name => .ok ((), broker.listen name Listener.advance)

end Broker

/-! ## Delivery -/

/-- The calls for messages, each with the number of functions that were called. -/
def deliveries (functions : List φ) (served : List (Message × ℕ)) : List (Message × φ) :=
  served.flatMap fun entry => (functions.take entry.2).map fun func => (entry.1, func)

/-- The functions are called in their order for one message after the other; for a message that is
done all those were called that were registered when it arrived, and no function twice. -/
def Delivered (functions : List φ) (listener : Listener φ) : Prop :=
  ∃ arrived done : List (Message × ℕ),
    List.Forall₂ (fun arrival finish => finish.1 = arrival.1 ∧ arrival.2 ≤ finish.2 ∧
      finish.2 ≤ functions.length) arrived done ∧
    listener.calls = deliveries functions (done ++ listener.current.toList) ∧
    match listener.current with
    | none => listener.received = arrived
    | some (message, i) => i ≤ functions.length ∧ ∃ count ≤ functions.length,
        listener.received = arrived ++ [(message, count)]

def registrations (events : List (Event φ)) : List (List Char × φ) :=
  events.filterMap fun event =>
    match event with
    | .subscribe name func => some (name, func)
    | _ => none

/-- The functions that the entry of a channel has after the events. -/
def registered (name : List Char) (events : List (Event φ)) : List φ :=
  (functionsFor name (registrations events)).take funcMaxCount

section Listener

variable {functions : List φ} {listener : Listener φ}

theorem deliveries_append (functions : List φ) (first second : List (Message × ℕ)) :
    deliveries functions (first ++ second) =
      deliveries functions first ++ deliveries functions second :=
  List.flatMap_append

theorem Delivered.start : Delivered functions Listener.start :=
  ⟨[], [], .nil, rfl, rfl⟩

theorem deliveries_more {served : List (Message × ℕ)}
    (inside : ∀ entry ∈ served, entry.2 ≤ functions.length) (more : List φ) :
    deliveries (functions ++ more) served = deliveries functions served := by
  rw [deliveries, deliveries]
  apply List.flatMap_congr
  intro entry member
  rw [List.take_append_of_le_length (inside entry member)]

theorem Delivered.more (delivered : Delivered functions listener) (more : List φ) :
    Delivered (functions ++ more) listener := by
  rcases delivered with ⟨arrived, done, served, calls, rest⟩
  have longer : functions.length ≤ (functions ++ more).length := by
    rw [List.length_append]
    exact Nat.le_add_right _ _
  have doneInside : ∀ entry ∈ done, entry.2 ≤ functions.length := by
    clear calls rest
    induction served with
    | nil => nofun
    | cons here _ induction =>
        intro entry member
        rcases List.mem_cons.mp member with rfl | member
        · exact here.2.2
        · exact induction entry member
  have inside : ∀ entry ∈ done ++ listener.current.toList, entry.2 ≤ functions.length := by
    intro entry member
    rcases List.mem_append.mp member with member | member
    · exact doneInside entry member
    · rw [Option.mem_toList] at member
      rw [member] at rest
      exact rest.1
  refine ⟨arrived, done, ?_, ?_, ?_⟩
  · refine served.imp ?_
    rintro arrival finish ⟨same, least, most⟩
    exact ⟨same, least, Nat.le_trans most longer⟩
  · rw [calls, deliveries_more inside]
  · cases now : listener.current with
    | none =>
        rw [now] at rest
        exact rest
    | some entry =>
        rw [now] at rest
        rcases rest with ⟨most, count, fewer, received⟩
        exact ⟨Nat.le_trans most longer, count, Nat.le_trans fewer longer, received⟩

theorem Delivered.receive (delivered : Delivered functions listener) (answer : Option Reply) :
    Delivered functions (listener.receive answer functions) := by
  rw [Listener.receive]
  split
  · next message idle _ =>
      rcases delivered with ⟨arrived, done, served, calls, rest⟩
      rw [idle] at calls rest
      refine ⟨arrived, done, served, ?_, Nat.zero_le _, functions.length, Nat.le_refl _, ?_⟩
      · rw [deliveries_append, calls, deliveries_append]
        rfl
      · rw [rest]
  · exact delivered

theorem Delivered.advance (delivered : Delivered functions listener) :
    Delivered functions (listener.advance functions) := by
  rw [Listener.advance]
  split
  · next message i busy =>
      rcases delivered with ⟨arrived, done, served, calls, rest⟩
      rw [busy] at calls rest
      rcases rest with ⟨most, count, fewer, received⟩
      split
      · next func found =>
          refine ⟨arrived, done, served, ?_, (List.getElem?_eq_some_iff.mp found).1, count, fewer,
            received⟩
          rw [calls, deliveries_append, deliveries_append, List.append_assoc]
          simp [deliveries, List.take_add_one, found]
      · next finished =>
          -- All functions that are registered now were called.
          have all : i = functions.length :=
            Nat.le_antisymm most (List.getElem?_eq_none_iff.mp finished)
          refine ⟨arrived ++ [(message, count)], done ++ [(message, i)], ?_, ?_, received⟩
          · refine List.rel_append served (.cons ⟨rfl, ?_, most⟩ .nil)
            rw [all]
            exact fewer
          · rw [calls]
            simp
  · exact delivered

end Listener

/-! ## Whole runs -/

section Runs

variable {opened : RedisState φ} {info : RedisConnInfo}

/-- The table has the registrations so far, and every thread has delivered its messages. -/
def Holds (opened : RedisState φ) (broker : Broker φ) (past : List (Event φ)) : Prop :=
  (∃ table, Registry opened (registrations past) broker.redis table) ∧
    ∀ name, Delivered (registered name past) (broker.listeners name)

/-- Only names that are their own keys are registered. -/
def Event.Plain : Event φ → Prop
  | .subscribe name _ => PlainName name
  | _ => True

theorem registrations_subscribe (name : List Char) (func : φ) (past : List (Event φ)) :
    registrations (past ++ [.subscribe name func]) = registrations past ++ [(name, func)] := by
  rw [registrations, List.filterMap_append]
  rfl

theorem registered_subscribe (name other : List Char) (func : φ) (past : List (Event φ)) :
    ∃ more, registered name (past ++ [.subscribe other func]) = registered name past ++ more := by
  rw [registered, registrations_subscribe]
  by_cases same : name = other
  · rw [same, functionsFor_append_same, List.take_append]
    exact ⟨_, rfl⟩
  · rw [functionsFor_append_other same]
    exact ⟨[], (List.append_nil _).symm⟩

theorem Holds.listen {broker : Broker φ} {past : List (Event φ)} (holds : Holds opened broker past)
    {event : Event φ} (silent : registrations (past ++ [event]) = registrations past)
    (name : List Char) {act : List φ → Listener φ → Listener φ}
    (keeps : ∀ functions listener, Delivered functions listener →
      Delivered functions (act functions listener)) :
    Holds opened (broker.listen name act) (past ++ [event]) := by
  rcases holds with ⟨⟨table, registry⟩, delivered⟩
  rw [Broker.listen]
  split
  · next subMsg found =>
      have member : name ∈ (registrations past).map Prod.fst := by
        apply Classical.byContradiction
        intro absent
        rw [registry.entries.others name absent] at found
        cases found
      rcases registry.entries.subscribed name member with ⟨entry, same, _, functions⟩
      rw [found] at same
      cases same
      refine ⟨⟨table, by rw [silent]; exact registry⟩, ?_⟩
      intro other
      rw [registered, silent]
      simp only
      split_ifs with own
      · rw [own, functions]
        exact keeps _ _ (delivered name)
      · exact delivered other
  · refine ⟨⟨table, by rw [silent]; exact registry⟩, ?_⟩
    intro other
    rw [registered, silent]
    exact delivered other

theorem Holds.step (connected : opened.redisConnInfo = .live info) {broker : Broker φ}
    {past : List (Event φ)} (holds : Holds opened broker past) {event : Event φ}
    (plain : event.Plain) :
    ∃ reply next, broker.step event = .ok (reply, next) ∧ Holds opened next (past ++ [event]) := by
  cases event with
  | subscribe name func =>
      rcases holds with ⟨⟨table, registry⟩, delivered⟩
      rcases registry.step connected plain func with ⟨reply, next, table', stepped, kept, _⟩
      refine ⟨(), { broker with redis := next }, ?_, ⟨table', ?_⟩, ?_⟩
      · rw [Broker.step, bind_ok stepped]
        rfl
      · rw [registrations_subscribe]
        exact kept
      · intro other
        rcases registered_subscribe other name func past with ⟨more, longer⟩
        rw [longer]
        exact (delivered other).more more
  | reply name answer =>
      refine ⟨(), _, rfl, holds.listen ?_ name ?_⟩
      · rw [registrations, List.filterMap_append]
        exact List.append_nil _
      · intro functions listener delivered
        exact delivered.receive answer
  | advance name =>
      refine ⟨(), _, rfl, holds.listen ?_ name ?_⟩
      · rw [registrations, List.filterMap_append]
        exact List.append_nil _
      · intro functions listener delivered
        exact delivered.advance

/-- However the registrations for plain names and the threads of the channels interleave, every
message of a channel goes to its functions in their order, at least to those that were registered
when it arrived, and to none of them twice. -/
theorem messages_delivered {state opened : RedisState φ} {host : List Char} {port : ℕ}
    (unopened : state.redisConnInfo = .null)
    (opens : initRedisConn host port true state = .ok (subOk, opened))
    (events : List (Event φ)) (plain : ∀ event ∈ events, event.Plain) :
    ∃ replies broker, run Broker.step ⟨opened, fun _ => .start⟩ events = .ok (replies, broker) ∧
      ∀ name, Delivered (registered name events) (broker.listeners name) := by
  rcases initRedisConn_opens unopened opens with ⟨live, info, connected⟩
  have start : Holds opened ⟨opened, fun _ => .start⟩ [] :=
    ⟨⟨[], .empty live⟩, fun _ => Delivered.start⟩
  rcases @Run.run_history _ _ _ _ Broker.step (Holds opened) (fun _ event => event.Plain)
    (fun broker past event holds plain => holds.step connected plain) events _ [] start
    (Run.along_of_mem events _ plain) with ⟨replies, broker, ran, _, delivered⟩
  exact ⟨replies, broker, ran, delivered⟩

end Runs

/-- A function is registered while the first message is being delivered. -/
def sampleEvents : List (Event ℕ) :=
  [.subscribe ['a'] 1, .reply ['a'] (some (.array [none, none, some ['x']])), .advance ['a'],
    .subscribe ['a'] 2, .advance ['a'], .advance ['a'],
    .reply ['a'] (some (.array [none, none, some ['y']])), .advance ['a']]

theorem messages_delivered_sample :
    ∃ replies broker, run Broker.step ⟨openedFirst, fun _ => .start⟩ sampleEvents =
        .ok (replies, broker) ∧
      Delivered [1, 2] (broker.listeners ['a']) := by
  have plain : ∀ event ∈ sampleEvents, event.Plain := by
    intro event member
    simp only [sampleEvents, List.mem_cons, List.not_mem_nil, or_false] at member
    rcases member with rfl | rfl | rfl | rfl | rfl | rfl | rfl | rfl
    all_goals first
      | exact trivial
      | exact (by decide : PlainName ['a'])
  rcases messages_delivered (show RedisState.start.redisConnInfo = .null from rfl)
    (show initRedisConn ['h'] 6379 true .start = .ok (subOk, openedFirst) from rfl) sampleEvents
    plain with ⟨replies, broker, ran, delivered⟩
  exact ⟨replies, broker, ran, delivered ['a']⟩

end Lctools.Redis
