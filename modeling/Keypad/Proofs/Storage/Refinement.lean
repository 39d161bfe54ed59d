import Mathlib.Logic.Function.Basic
import Keypad.Proofs.Storage.Document

/-!
Contract: a store in a file answers as a map of texts does, and the file is that map at any time.

Owns:
- what is asked of a store, dropping and opening it again included, and how a map answers;
- stores that are opened again as they are, and that every request leaves them so;
- that a store answers every sequence of requests as the map in its file does, as long as no
  operation fails.

Does not own: which map a file holds, stores whose writes fail.
-/

namespace Keypad

namespace Slots

theorem get?_insert_eq_update (slots : Slots) (name value : String) :
    (slots.insert name value).get? = Function.update slots.get? name (some value) := by
  funext other
  by_cases same : other = name
  · rw [same, get?_insert, Function.update_self]
  · rw [get?_insert_of_ne _ _ same, Function.update_of_ne same]

theorem get?_erase_eq_update (slots : Slots) (name : String) :
    (slots.erase name).get? = Function.update slots.get? name none := by
  funext other
  by_cases same : other = name
  · rw [same, get?_erase, Function.update_self]
  · rw [get?_erase_of_ne _ same, Function.update_of_ne same]

end Slots

namespace FileStore

/-! ## Requests -/

/-- What is asked of a store in a file. -/
inductive Request where
  | get (name : String)
  | set (name value : String)
  | remove (name : String)
  | reload
  | reopen

/-- What a request that did not fail is answered with. -/
inductive Reply where
  | found (value : Option String)
  | done
  deriving DecidableEq

/-- The reply to a change that succeeded, and the store after it. -/
def finished : Except FileFault Unit × FileStore → Except FileFault (Reply × FileStore)
  | (.ok (), after) => .ok (.done, after)
  | (.error fault, _) => .error fault

/-- A store under a path answers a request. To open again means to drop the store and open the path
on what is then on disk. -/
def answer (path : String) (store : FileStore) : Request → Except FileFault (Reply × FileStore)
  | .get name => (store.get name).map fun value => (.found value, store)
  | .set name value => finished (store.set name value)
  | .remove name => finished (store.remove name)
  | .reload => store.reload.map fun after => (.done, after)
  | .reopen => (openAt store.disk path).map fun after => (.done, after)

/-- A store answers some requests, one after the other, unless one fails. -/
def serve (path : String) (store : FileStore) :
    List Request → Except FileFault (List Reply × FileStore)
  | [] => .ok ([], store)
  | request :: requests =>
      match answer path store request with
      | .error fault => .error fault
      | .ok (reply, after) =>
          match serve path after requests with
          | .error fault => .error fault
          | .ok (replies, final) => .ok (reply :: replies, final)

end FileStore

namespace TextMap

/-- A map answers a request; reading it again does not change it. -/
def answer (map : TextMap) : FileStore.Request → FileStore.Reply × TextMap
  | .get name => (.found (map name), map)
  | .set name value => (.done, Function.update map name (some value))
  | .remove name => (.done, Function.update map name none)
  | .reload => (.done, map)
  | .reopen => (.done, map)

def serve (map : TextMap) : List FileStore.Request → List FileStore.Reply × TextMap
  | [] => ([], map)
  | request :: requests =>
      let (reply, after) := map.answer request
      let (replies, final) := serve after requests
      (reply :: replies, final)

end TextMap

namespace FileStore

variable {path : String} {store after final : FileStore} {disk : FileSystem}

/-- A store under a path that is opened again as it is. -/
structure Durable (path : String) (store : FileStore) : Prop where
  place : store.path = path
  reopens : openAt store.disk path = .ok store

theorem Durable.reload (durable : Durable path store) : store.reload = .ok store := by
  unfold FileStore.reload
  rw [durable.place, durable.reopens]

/-- A change that was written is found when the store is opened again. -/
theorem Durable.flush (durable : Durable path store) {slots : Slots}
    (flushed : flush { store with slots } = (.ok (), after)) :
    Durable path after ∧ after.slots = slots := by
  have written := flushed_of_flush flushed
  have place : after.path = path := written.path.trans durable.place
  exact ⟨⟨place, place ▸ written.openAt⟩, written.slots⟩

theorem exists_of_finished {outcome : Except FileFault Unit × FileStore} {reply : Reply}
    (succeeded : finished outcome = .ok (reply, after)) :
    outcome = (.ok (), after) ∧ reply = .done := by
  obtain ⟨result, changed⟩ := outcome
  cases result with
  | ok nothing =>
      cases succeeded
      exact ⟨rfl, rfl⟩
  | error fault => cases succeeded

/-- A request is answered as the map of the slots answers it. -/
theorem Durable.answer {request : Request} {reply : Reply} (durable : Durable path store)
    (answered : answer path store request = .ok (reply, after)) :
    Durable path after ∧ TextMap.answer store.slots.get? request = (reply, after.slots.get?) := by
  cases request with
  | get name =>
      cases answered
      exact ⟨durable, rfl⟩
  | set name value =>
      obtain ⟨changed, rfl⟩ := exists_of_finished answered
      obtain ⟨afterDurable, slotsEq⟩ := durable.flush changed
      rw [slotsEq, Slots.get?_insert_eq_update]
      exact ⟨afterDurable, rfl⟩
  | remove name =>
      obtain ⟨changed, rfl⟩ := exists_of_finished answered
      unfold remove at changed
      split at changed
      next present =>
        obtain ⟨afterDurable, slotsEq⟩ := durable.flush changed
        rw [slotsEq, Slots.get?_erase_eq_update]
        exact ⟨afterDurable, rfl⟩
      next absent =>
        -- Nothing is written, and nothing need be: the file holds no such name either.
        cases changed
        have isNone : store.slots.get? name = none := by simpa using absent
        have unchanged : Function.update store.slots.get? name none = store.slots.get? := by
          rw [Function.update_eq_self_iff, isNone]
        exact ⟨durable, congrArg (Prod.mk Reply.done) unchanged⟩
  | reload =>
      simp only [FileStore.answer, durable.reload] at answered
      cases answered
      exact ⟨durable, rfl⟩
  | reopen =>
      simp only [FileStore.answer, durable.reopens] at answered
      cases answered
      exact ⟨durable, rfl⟩

/-- All requests are answered as the map of the slots answers them. -/
theorem Durable.serve {requests : List Request} {replies : List Reply}
    (durable : Durable path store) (served : serve path store requests = .ok (replies, final)) :
    Durable path final ∧ TextMap.serve store.slots.get? requests = (replies, final.slots.get?) := by
  induction requests generalizing store replies with
  | nil =>
      cases served
      exact ⟨durable, rfl⟩
  | cons request requests inductionHypothesis =>
      unfold FileStore.serve at served
      split at served
      · cases served
      next reply after answered =>
        split at served
        · cases served
        next later final laterServed =>
          cases served
          obtain ⟨afterDurable, answerEq⟩ := durable.answer answered
          obtain ⟨finalDurable, serveEq⟩ := inductionHypothesis afterDurable laterServed
          refine ⟨finalDurable, ?_⟩
          simp only [TextMap.serve, answerEq, serveEq]

/-- Whatever is asked of a store that was opened, as long as no operation fails: the replies are
those of the map that the file holds at first, the slots are then that map after the same requests,
and the path is opened again as the very store. -/
theorem serves_map_of_openAt {requests : List Request} {replies : List Reply}
    (opened : openAt disk path = .ok store)
    (served : FileStore.serve path store requests = .ok (replies, final)) :
    ∃ map : TextMap, Holds disk path map ∧ map.serve requests = (replies, final.slots.get?) ∧
      openAt final.disk path = .ok final := by
  obtain ⟨place, sameDisk, found⟩ := openAt_eq_ok_iff.mp opened
  have durable : Durable path store := ⟨place, sameDisk ▸ opened⟩
  obtain ⟨finalDurable, serveEq⟩ := durable.serve served
  exact ⟨store.slots.get?, holds_of_slotsOnDisk found, serveEq, finalDurable.reopens⟩

theorem exists_served {requests : List Request} {replies : List Reply}
    (replied : ((openAt disk path).bind fun store =>
      (FileStore.serve path store requests).map Prod.fst) = .ok replies) :
    ∃ store final, openAt disk path = .ok store ∧
      FileStore.serve path store requests = .ok (replies, final) := by
  cases opened : openAt disk path with
  | error fault => simp [opened, Except.bind] at replied
  | ok store =>
      simp only [opened, Except.bind] at replied
      cases served : FileStore.serve path store requests with
      | error fault => simp [served, Except.map] at replied
      | ok result =>
          simp only [served, Except.map, Except.ok.injEq] at replied
          exact ⟨store, result.2, rfl, by rw [served, ← replied]⟩

/-- A file that spells one name in two ways, changed and opened again. -/
theorem serves_map_of_openAt_respelled :
    ∃ disk requests replies store final map,
      disk = (FileSystem.bare ["home"]).put ["slots.json", "home"]
        (.file "\x7b\"a\": \"1\", \"\\u0061\": \"2\"\x7d".toUTF8) ∧
      requests = [.get "a", .set "\"\n" "ü", .remove "a", .reopen, .get "\"\n", .get "a"] ∧
      replies = [.found (some "2"), .done, .done, .done, .found (some "ü"), .found none] ∧
      openAt disk "/home/slots.json" = .ok store ∧
      FileStore.serve "/home/slots.json" store requests = .ok (replies, final) ∧
      Holds disk "/home/slots.json" map ∧
      map.serve requests = (replies, final.slots.get?) ∧
      openAt final.disk "/home/slots.json" = .ok final := by
  have replied : ((openAt ((FileSystem.bare ["home"]).put ["slots.json", "home"]
      (.file "\x7b\"a\": \"1\", \"\\u0061\": \"2\"\x7d".toUTF8)) "/home/slots.json").bind
        fun store => (FileStore.serve "/home/slots.json" store
          [.get "a", .set "\"\n" "ü", .remove "a", .reopen, .get "\"\n", .get "a"]).map Prod.fst) =
      .ok [.found (some "2"), .done, .done, .done, .found (some "ü"), .found none] := by
    decide +kernel
  obtain ⟨store, final, opened, served⟩ := exists_served replied
  obtain ⟨map, holds, mapServed, reopened⟩ := serves_map_of_openAt opened served
  exact ⟨_, _, _, store, final, map, rfl, rfl, rfl, opened, served, holds, mapServed, reopened⟩

end FileStore

end Keypad
