import Mathlib.Algebra.Group.Nat.Defs
import ServerCentral.Framework.Handles
import ServerCentral.Framework.Machine

/-!
# The polling cache of the dashboard

Widgets that show the same operation share an entry of a cache, which polls it: `useHostPoll`
subscribes a widget, and the entry keeps at most one request and one timer. The entries are
objects: one that was dropped from the cache lives on in the closures that hold it.

The machine takes the steps of the browser: a widget renders, mounts and unmounts, a timer fires,
an answer arrives, the tab is hidden or shown.
-/

open Framework

namespace ServerCentral.Web.HostPoll

def maxBackoffMs : ℕ := 60000

variable {K V : Type*}

/-- `Entry`. The key stands for the operation and its arguments. -/
structure Entry (K V : Type*) where
  key : K
  intervalMs : ℕ
  /-- `none` is `null`. -/
  data : Option V := none
  error : Option String := none
  loading : Bool := true
  /-- Consecutive failures, for the backoff. -/
  failures : ℕ := 0
  inFlight : Option ℕ := none
  timer : Option ℕ := none
  evictTimer : Option ℕ := none
  subscribers : List ℕ := []

def delayFor (entry : Entry K V) : ℕ :=
  if entry.failures = 0 then entry.intervalMs
  else min maxBackoffMs (entry.intervalMs * 2 ^ min entry.failures 5)

/-- What a request comes to. An answer may be `null`. -/
abbrev Answer (V : Type*) := Except String (Option V)

/-- The entry when its request has ended. -/
def Entry.land (entry : Entry K V) (result : Answer V) : Entry K V :=
  let entry :=
    match result with
    | .ok data => { entry with data, error := none, failures := 0 }
    | .error message => { entry with error := some message, failures := entry.failures + 1 }
  { entry with loading := false, inFlight := none }

structure Polls (K V : Type*) where
  /-- The objects, by their numbers. -/
  objects : Table ℕ (Entry K V)
  /-- `entries` -/
  entries : Table K ℕ
  /-- The pending timers, each with its object and its delay. -/
  polls : Table ℕ (ℕ × ℕ)
  evictions : Table ℕ ℕ
  requests : Table ℕ ℕ
  /-- The widgets that are mounted. -/
  mounted : Table ℕ ℕ
  /-- `document.hidden` -/
  hidden : Bool
  next : ℕ

inductive PollLabel (K V : Type*) where
  /-- A widget renders. -/
  | render (key : K) (intervalMs : ℕ)
  /-- The effect of a widget, and its cleanup. -/
  | mount (c : ℕ) (key : K) (intervalMs : ℕ)
  | unmount (c : ℕ)
  /-- A widget calls the `refresh` that it was given with an object. -/
  | refresh (e : ℕ)
  | answer (r : ℕ) (result : Answer V)
  | pollFires (t : ℕ)
  | evictFires (t : ℕ)
  | visibility (hidden : Bool)

namespace Polls

/-! ### The functions of the module -/

/-- `clearTimeout(entry.timer)` -/
def stopPoll (s : Polls K V) (e : ℕ) : Polls K V :=
  match s.objects.get? e with
  | none => s
  | some entry =>
    { s with
      objects := s.objects.set e { entry with timer := none }
      polls := s.polls.cancel entry.timer }

/-- `setTimeout(() => void fetchNow(entry), delayFor(entry))` -/
def startPoll (s : Polls K V) (e : ℕ) : Polls K V :=
  match s.objects.get? e with
  | none => s
  | some entry =>
    { s with
      objects := s.objects.set e { entry with timer := some s.next }
      polls := s.polls.set s.next (e, delayFor entry)
      next := s.next + 1 }

def subscribersOf (s : Polls K V) (e : ℕ) : List ℕ :=
  (s.objects.get? e).elim [] Entry.subscribers

def schedule (s : Polls K V) (e : ℕ) : Polls K V :=
  if s.subscribersOf e = [] ∨ s.hidden = true then s.stopPoll e
  else (s.stopPoll e).startPoll e

/-- `fetchNow`, with the requests it makes. -/
def fetchNow (s : Polls K V) (e : ℕ) : Polls K V × List ℕ :=
  match s.objects.get? e with
  | none => (s, [])
  | some entry =>
    if entry.inFlight.isSome then (s, [])
    else
      ({ s with
          objects := s.objects.set e { entry with inFlight := some s.next }
          requests := s.requests.set s.next e
          next := s.next + 1 },
        [e])

/-- A new entry of the cache. -/
def create [DecidableEq K] (s : Polls K V) (key : K) (intervalMs : ℕ) : Polls K V :=
  { s with
    objects := s.objects.set s.next { key, intervalMs }
    entries := s.entries.set key s.next
    next := s.next + 1 }

/-- What `getEntry` does to an entry that there is. -/
def touch (s : Polls K V) (e intervalMs : ℕ) : Polls K V :=
  match s.objects.get? e with
  | none => s
  | some entry =>
    { s with
      objects := s.objects.set e
        { entry with evictTimer := none, intervalMs := min entry.intervalMs intervalMs }
      evictions := s.evictions.cancel entry.evictTimer }

def getEntry [DecidableEq K] (s : Polls K V) (key : K) (intervalMs : ℕ) : Polls K V × ℕ :=
  match s.entries.get? key with
  | some e => (s.touch e intervalMs, e)
  | none => ((s.create key intervalMs).touch s.next intervalMs, s.next)

/-- `entry.subscribers.add(listener)` -/
def listen (s : Polls K V) (c e : ℕ) : Polls K V :=
  match s.objects.get? e with
  | none => s
  | some entry =>
    { s with
      objects := s.objects.set e { entry with subscribers := c :: entry.subscribers }
      mounted := s.mounted.set c e }

/-- `entry.subscribers.delete(listener)` -/
def leave (s : Polls K V) (c e : ℕ) : Polls K V :=
  match s.objects.get? e with
  | none => s
  | some entry =>
    { s with
      objects := s.objects.set e { entry with subscribers := entry.subscribers.erase c }
      mounted := s.mounted.erase c }

/-- The timer of the eviction. -/
def startEviction (s : Polls K V) (e : ℕ) : Polls K V :=
  match s.objects.get? e with
  | none => s
  | some entry =>
    { s with
      objects := s.objects.set e { entry with evictTimer := some s.next }
      evictions := s.evictions.set s.next e
      next := s.next + 1 }

/-- The effect of a widget. -/
def mount [DecidableEq K] (s : Polls K V) (c : ℕ) (key : K) (intervalMs : ℕ) :
    Polls K V × List ℕ :=
  let (s, e) := s.getEntry key intervalMs
  let s := s.listen c e
  match s.objects.get? e with
  | none => (s, [])
  | some entry =>
    if entry.data.isNone && entry.error.isNone then s.fetchNow e else (s.schedule e, [])

/-- The cleanup of the effect. -/
def unmount (s : Polls K V) (c e : ℕ) : Polls K V :=
  let s := s.leave c e
  if s.subscribersOf e = [] then (s.stopPoll e).startEviction e else s

/-- An eviction is due. -/
def evict [DecidableEq K] (s : Polls K V) (e : ℕ) : Polls K V :=
  match s.objects.get? e with
  | none => s
  | some entry =>
    if entry.subscribers = [] then { s with entries := s.entries.erase entry.key } else s

/-- A request has ended. -/
def land (s : Polls K V) (r e : ℕ) (result : Answer V) : Polls K V :=
  match s.objects.get? e with
  | none => s
  | some entry =>
    { s with
      objects := s.objects.set e (entry.land result)
      requests := s.requests.erase r }

/-- One round of the loop of the listener for `visibilitychange`. -/
def onVisibility (s : Polls K V) (e : ℕ) : Polls K V × List ℕ :=
  if s.subscribersOf e = [] then (s, [])
  else if s.hidden then (s.stopPoll e, [])
  else s.fetchNow e

/-- The loop. -/
def onVisibilityAll (s : Polls K V) : List ℕ → Polls K V × List ℕ
  | [] => (s, [])
  | e :: es =>
    let (s, asked) := s.onVisibility e
    let (s, more) := s.onVisibilityAll es
    (s, asked ++ more)

/-! ### The steps -/

/-- What others see of a step: the objects that make a request, and the one whose request has
ended. -/
structure Out (V : Type*) where
  asked : List ℕ := []
  landed : Option (ℕ × Answer V) := none

def step [DecidableEq K] (s : Polls K V) : PollLabel K V → Option (Polls K V × Out V)
  | .render key intervalMs => some ((s.getEntry key intervalMs).1, {})
  | .mount c key intervalMs =>
    if s.mounted.has c then none
    else
      let (s, asked) := s.mount c key intervalMs
      some (s, { asked })
  | .unmount c => (s.mounted.get? c).map fun e => (s.unmount c e, {})
  | .refresh e =>
    if s.objects.has e then
      let (s, asked) := s.fetchNow e
      some (s, { asked })
    else none
  | .answer r result =>
    (s.requests.get? r).map fun e =>
      ((s.land r e result).schedule e, { landed := some (e, result) })
  | .pollFires t =>
    (s.polls.get? t).map fun p =>
      let (s, asked) := { s with polls := s.polls.erase t }.fetchNow p.1
      (s, { asked })
  | .evictFires t =>
    (s.evictions.get? t).map fun e => ({ s with evictions := s.evictions.erase t }.evict e, {})
  | .visibility hidden =>
    let (s, asked) := { s with hidden }.onVisibilityAll s.entries.values
    some (s, { asked })

end Polls

/-- **The cache over the life of the page.** -/
def pollMachine (K V : Type*) [DecidableEq K] :
    Machine (Polls K V) (PollLabel K V) (Polls.Out V) where
  init := ⟨.empty, .empty, .empty, .empty, .empty, .empty, false, 0⟩
  step := Polls.step

end ServerCentral.Web.HostPoll
