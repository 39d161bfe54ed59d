import Keypad.Proofs.Json.Nested

/-!
Contract: readers refuse written arrays and objects for the first part in them that they refuse.

Owns:
- when a reader refuses a text and with which fault, after any blanks and before anything that does
  not continue a number;
- `null` in the place of a number and in the place of an optional value;
- arrays and objects in which parts that are taken stand before one that is refused.

Does not own: which parts the readers of a history refuse.
-/

namespace Keypad.Json

/-- A reader refuses a text with a fault, after any blanks and before anything that does not
continue a number. -/
def Refuses {α : Type} (reader : Reader α) (text : List Char) (fault : Fault) : Prop :=
  ∀ blanks rest : List Char, blanks.all isBlank = true → endsNumber rest = true →
    reader.run (blanks ++ (text ++ rest)) = .error fault

section Values

variable {α β : Type} {reader : Reader α} {text : List Char} {value : α} {fault : Fault}

theorem Refuses.gives (refuses : Refuses reader text fault) : Gives reader text (.error fault) :=
  refuses

theorem Refuses.map (refuses : Refuses reader text fault) (change : α → β) :
    Refuses (reader.map change) text fault :=
  refuses.gives.andThen _

/-- A value that is read may be refused afterwards. -/
theorem Reads.refuses {next : α → Result β} (reads : Reads reader text value)
    (rejected : next value = .error fault) : Refuses (reader.andThen next) text fault := by
  have gives : Gives (reader.andThen next) text (next value) := reads.gives.andThen next
  rw [rejected] at gives
  exact gives

/-- A whole text that is nothing but a refused part. -/
theorem Refuses.readAll (refuses : Refuses reader text fault) :
    readAll reader (String.ofList text) = .error fault :=
  refuses.gives.readAll_ofList

/-- The literal that stands for a value that is not there. -/
def nullText : List Char := ['n', 'u', 'l', 'l']

theorem skipBlanks_nullText {blanks : List Char} (all : blanks.all isBlank = true)
    (rest : List Char) :
    skipBlanks (blanks ++ (nullText ++ rest)) = 'n' :: 'u' :: 'l' :: 'l' :: rest :=
  skipBlanks_append all

theorem refuses_binary64_null :
    Refuses binary64 nullText (.misfit (.wrongType .null .number)) := by
  have refuses : Refuses (number .number) nullText (.misfit (.wrongType .null .number)) := by
    intro blanks rest all _
    simp only [number, skipBlanks_nullText all]
    rfl
  exact refuses.map Number.toBinary64

/-- An optional value may be left out by `null`. -/
theorem readsMember_null (reader : Reader α) :
    ReadsMember (member (optional reader)) nullText none := by
  intro blanks rest all _
  refine (run_member (optional reader) List.all_nil _).trans ?_
  simp only [optional, skipBlanks_nullText all]
  rfl

end Values

/-! ## Arrays -/

section Arrays

variable {α β : Type} {reader : Reader α} {write : β → List Char} {change : β → α}
  {accepted later : List β} {refused : β} {fault : Fault}

theorem elementsFrom_error {first : Bool} {text : List Char} (before : List α)
    (next : nextElement reader first text = .error fault) :
    elementsFrom reader before first text = .error fault := by
  rw [elementsFrom_eq, next]
  rfl

theorem nextElement_refused {first : Bool} {text rest : List Char}
    (begins : beginsValue text = true) (refuses : Refuses reader text fault)
    (ends : endsNumber rest = true) :
    nextElement reader first (elementLead first ++ (text ++ rest)) = .error fault := by
  have run := refuses [] rest rfl ends
  rw [List.nil_append] at run
  simp only [nextElement_of_beginsValue begins, run, Except.map]

theorem endsNumber_laterElements (write : β → List Char) (values : List β) (rest : List Char) :
    endsNumber ((values.flatMap fun value => ',' :: write value) ++ ']' :: rest) = true := by
  cases values <;> rfl

/-- An array is refused for its first element that is refused. -/
theorem refuses_writeArray
    (reads : ∀ value ∈ accepted, Reads reader (write value) (change value))
    (begins : beginsValue (write refused) = true) (refuses : Refuses reader (write refused) fault) :
    Refuses (array reader) (writeArray ((accepted ++ refused :: later).map write)) fault := by
  intro blanks rest all _
  have startEq : skipBlanks
      (blanks ++ (writeArray ((accepted ++ refused :: later).map write) ++ rest)) =
      '[' :: ([','].intercalate ((accepted ++ refused :: later).map write) ++ ']' :: rest) :=
    skipBlanks_enclosed '[' ']' rfl all ..
  have ends := endsNumber_laterElements write later rest
  simp only [array, startEq]
  cases accepted with
  | nil =>
      rw [List.nil_append, List.map_cons, intercalate_cons, List.append_assoc, List.flatMap_map]
      exact elementsFrom_error [] (nextElement_refused begins refuses ends)
  | cons value accepted =>
      have laterText : (accepted ++ refused :: later).flatMap (fun value => ',' :: write value) ++
          ']' :: rest =
          (accepted.flatMap fun value => ',' :: write value) ++ (elementLead false ++
            (write refused ++
              ((later.flatMap fun value => ',' :: write value) ++ ']' :: rest))) := by
        simp [elementLead]
      rw [List.cons_append, List.map_cons, intercalate_cons, List.append_assoc, List.flatMap_map]
      refine (elementsFrom_next [] (nextElement_written (reads value List.mem_cons_self)
        (endsNumber_laterElements write _ rest))).trans ?_
      rw [laterText, elementsFrom_through
        (fun other member => reads other (List.mem_cons_of_mem _ member)) [change value] rfl]
      exact elementsFrom_error _ (nextElement_refused begins refuses ends)

end Arrays

/-! ## Objects -/

/-- A reader refuses a text behind a colon and blanks. -/
def RefusesMember {α : Type} (reader : Reader α) (text : List Char) (fault : Fault) : Prop :=
  ∀ blanks rest : List Char, blanks.all isBlank = true → endsNumber rest = true →
    reader.run (':' :: (blanks ++ (text ++ rest))) = .error fault

namespace RefusesMember

variable {α β : Type} {reader : Reader α} {text : List Char} {fault : Fault}

theorem of_refuses (refuses : Refuses reader text fault) :
    RefusesMember (member reader) text fault := by
  intro blanks rest all ends
  exact (run_member reader List.all_nil _).trans (refuses blanks rest all ends)

theorem map (refuses : RefusesMember reader text fault) (change : α → β) :
    RefusesMember (reader.map change) text fault := by
  intro blanks rest all ends
  simp only [Reader.map, Reader.andThen, refuses blanks rest all ends]

end RefusesMember

/-- Of members, given as the first one and the others, some are gathered one after the other before
one that the reader chosen for it refuses. -/
inductive Stops {σ : Type} (choose : String → σ → Reader σ) (fault : Fault) :
    String × List Char → List (String × List Char) → σ → Prop where
  | here {name : String} {text : List Char} {gathered : σ}
      (refuses : RefusesMember (choose name gathered) text fault)
      (members : List (String × List Char)) :
      Stops choose fault (name, text) members gathered
  | later {name : String} {text : List Char} {next : String × List Char}
      {members : List (String × List Char)} {gathered extended : σ}
      (first : ReadsMember (choose name gathered) text extended)
      (rest : Stops choose fault next members extended) :
      Stops choose fault (name, text) (next :: members) gathered

section Members

variable {σ : Type} {choose : String → σ → Reader σ} {entry : String × List Char}
  {members : List (String × List Char)} {gathered : σ} {fault : Fault}

theorem membersFrom_error {first : Bool} {name : String} {text afterKey : List Char}
    (key : nextKey first text = .ok (some name, afterKey))
    (value : (choose name gathered).run afterKey = .error fault) :
    membersFrom choose gathered first text = .error fault := by
  rw [membersFrom_eq, key]
  show ((choose name gathered).run afterKey).bind _ = _
  rw [value]
  rfl

/-- Members are refused for the first one that is refused, whatever stands before them. -/
theorem membersFrom_stops {first : Bool} {lead : List Char} (leads : Leads first lead)
    (stops : Stops choose fault entry members gathered) (rest : List Char) :
    membersFrom choose gathered first
        (lead ++ (writeText entry.1 ++ ':' :: (entry.2 ++ laterMembers [] [] [] members rest))) =
      .error fault := by
  induction stops generalizing first lead with
  | here refuses members =>
      exact membersFrom_error (nextKey_spelled leads (isText_writeText _) _)
        (refuses [] _ rfl (endsNumber_laterMembers [] [] members rfl rest))
  | later read stops inductionHypothesis =>
      next name text next members gathered extended =>
      have value := read [] (laterMembers [] [] [] (next :: members) rest) rfl
        (endsNumber_laterMembers [] [] (next :: members) rfl rest)
      have unfolded : laterMembers [] [] [] (next :: members) rest =
          [','] ++ (writeText next.1 ++
            ':' :: (next.2 ++ laterMembers [] [] [] members rest)) := by
        simp [laterMembers, memberText]
      refine (membersFrom_next (nextKey_spelled leads (isText_writeText name) _) value).trans ?_
      rw [unfolded]
      exact inductionHypothesis (.later List.all_nil List.all_nil)

/-- The members of a written object are refused for the first one that is refused. -/
theorem membersFrom_refused (stops : Stops choose fault entry members gathered)
    (rest : List Char) :
    membersFrom choose gathered true
        ([','].intercalate ((entry :: members).map (memberText [] [])) ++ ([] ++ '\x7d' :: rest)) =
      .error fault := by
  have unfolded :
      [','].intercalate ((entry :: members).map (memberText [] [])) ++ ([] ++ '\x7d' :: rest) =
        [] ++ (writeText entry.1 ++
          ':' :: (entry.2 ++ laterMembers [] [] [] members rest)) := by
    rw [List.map_cons, intercalate_cons, List.flatMap_map]
    simp [laterMembers, memberText]
  rw [unfolded]
  exact membersFrom_stops (.first List.all_nil) stops rest

end Members

/-- A written object is refused as a record by the reader of its members. -/
theorem refuses_writeObject {α : Type} {name : String} {ofElements ofMembers : List Char → Step α}
    (elementsShorter : ∀ {text rest : List Char} {value : α},
      ofElements text = .ok (value, rest) → rest.length ≤ text.length)
    (membersShorter : ∀ {text rest : List Char} {value : α},
      ofMembers text = .ok (value, rest) → rest.length ≤ text.length)
    {members : List (String × List Char)} {fault : Fault}
    (refused : ∀ rest : List Char,
      ofMembers ([','].intercalate (members.map (memberText [] [])) ++ ([] ++ '\x7d' :: rest)) =
        .error fault) :
    Refuses (record name ofElements ofMembers elementsShorter membersShorter)
      (writeObject members) fault := by
  intro blanks rest all _
  rw [run_record_writeObject elementsShorter membersShorter members all, refused]

end Keypad.Json
