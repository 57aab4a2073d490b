import Mathlib.Logic.Relation
import Mathlib.Tactic.Common
import Libgoc.Data.CString
import Libgoc.Schema.Value

namespace Libgoc.Schema

open Libgoc.Data

/-! # Looking up an error path (`src/goc_dict.c`) -/

/-- `"%.*s"`: a negative precision stands for none. -/
def printPrefix (precision : Int) (text : Text) : Text :=
  if precision < 0 then text else text.take precision.toNat

/-- The number of a step after its opening bracket, and what follows the closing one. -/
def readIndex (text : Text) : Option (Nat × Text) :=
  match scanUlong text with
  | some (i, closing :: rest) => if closing = 93 then some (i, rest) else none
  | _ => none

def readKey (text : Text) : Option Text :=
  gocSprintf (printPrefix (truncateInt (text.takeWhile (· != 46)).length) text)

/-- What one turn of the loop of `goc_dict_get_in` comes to: a return, or the
rest of the path and the value to go on from. -/
inductive Turn where
  | returned (val : Val)
  | next (rest : Text) (cur : Val)

/-- One turn of the loop, at the first byte of the rest of the path.  There is no
result where the process aborts or a pointer is read as what it is not. -/
def getInTurn (notFound : Val) (byte : UInt8) (rest : Text) (cur : Val) : Option Turn :=
  if byte ≠ 46 then some (.returned notFound)
  else if rest = [] then some (.returned notFound)
  else if isNull cur then some (.returned notFound)
  else if rest.head? = some 91 then
    match readIndex rest.tail, cur with
    | none, _ => some (.returned notFound)
    | some (i, rest), .arr _ _ elems =>
      match elems[i]? with
      | some elem => some (.next rest elem)
      | none => some (.returned notFound)
    | some _, _ => none
  else if rest.takeWhile (· != 46) = [] then some (.returned notFound)
  else
    match readKey rest, cur with
    | some key, .dict _ entries =>
      match entries.find? fun entry => entry.1 = key with
      | none => some (.returned notFound)
      | some entry =>
        if sameAddress entry.2 notFound then some (.returned entry.2)
        else some (.next (rest.dropWhile (· != 46)) entry.2)
    | _, _ => none

def getInFrom (notFound : Val) : Nat → Text → Val → Option Val
  | _, [], cur => some cur
  | 0, _ :: _, _ => none
  | fuel + 1, byte :: rest, cur =>
    match getInTurn notFound byte rest cur with
    | none => none
    | some (.returned val) => some val
    | some (.next rest cur) => getInFrom notFound fuel rest cur

/-- `goc_dict_get_in`; each turn takes a byte of the path at least. -/
def gocDictGetIn (root : Val) (path : Text) (notFound : Val) : Option Val :=
  getInFrom notFound path.length path root

/-- A key that a path can hold. -/
structure Expressible (key : Text) : Prop where
  filled : key ≠ []
  undotted : 46 ∉ key
  plain : key.head? ≠ some 91

theorem isDigit_digitChar (bound : digit < 10) :
    isDigit (Nat.digitChar digit).toNat.toUInt8 = true ∧
      (Nat.digitChar digit).toNat.toUInt8.toNat - 48 = digit := by
  have all : ∀ digit < 10, isDigit (Nat.digitChar digit).toNat.toUInt8 = true ∧
      (Nat.digitChar digit).toNat.toUInt8.toNat - 48 = digit := by decide
  exact all digit bound

theorem digitsValue_concat :
    digitsValue (digits ++ [digit]) = digitsValue digits * 10 + (digit.toNat - 48) := by
  simp [digitsValue]

/-- A printed number is read back. -/
theorem decimal_digits (n : Nat) :
    (∀ byte ∈ decimal n, isDigit byte = true) ∧ decimal n ≠ [] ∧ digitsValue (decimal n) = n := by
  induction n using Nat.strongRecOn with
  | _ n ih =>
    by_cases small : n < 10
    · obtain ⟨digit, value⟩ := isDigit_digitChar small
      have single : decimal n = [(Nat.digitChar n).toNat.toUInt8] := by
        rw [decimal, Nat.toDigits_of_lt_base small]
        rfl
      rw [single]
      refine ⟨?_, by simp, ?_⟩
      · intro byte member
        obtain rfl := List.mem_singleton.mp member
        exact digit
      · simpa [digitsValue] using value
    · obtain ⟨digits, filled, value⟩ := ih (n / 10) (by omega)
      have below : n % 10 < 10 := by omega
      obtain ⟨lastDigit, lastValue⟩ := isDigit_digitChar below
      have split : decimal n = decimal (n / 10) ++ [(Nat.digitChar (n % 10)).toNat.toUInt8] := by
        rw [decimal, Nat.toDigits_of_base_le (by omega) (by omega), List.map_append]
        rfl
      rw [split]
      refine ⟨?_, by simp, ?_⟩
      · intro byte member
        obtain member | member := List.mem_append.mp member
        · exact digits byte member
        · obtain rfl := List.mem_singleton.mp member
          exact lastDigit
      · rw [digitsValue_concat, value, lastValue]
        omega

/-- A digit is neither a space nor a sign. -/
theorem unsigned_of_isDigit (digit : isDigit byte = true) :
    isSpace byte = false ∧ byte ≠ 45 ∧ byte ≠ 43 := by
  simp only [isDigit, isSpace, Bool.and_eq_true, decide_eq_true_eq, UInt8.le_iff_toNat_le] at *
  refine ⟨?_, ?_, ?_⟩
  · simp only [Bool.or_eq_false_iff, beq_eq_false_iff_ne, Bool.and_eq_false_iff,
      decide_eq_false_iff_not]
    constructor
    · rintro rfl
      simp at digit
    · right
      intro above
      have := digit.1.trans above
      simp at this
  · rintro rfl
    simp at digit
  · rintro rfl
    simp at digit

theorem readIndex_decimal (bound : n < 2 ^ 64) :
    readIndex (decimal n ++ 93 :: rest) = some (n, rest) := by
  obtain ⟨digits, filled, value⟩ := decimal_digits n
  obtain ⟨first, others, split⟩ := List.exists_cons_of_ne_nil filled
  obtain ⟨space, minus, plus⟩ := unsigned_of_isDigit (digits first (by simp [split]))
  have taken : (decimal n ++ 93 :: rest).takeWhile isDigit = decimal n := by
    rw [List.takeWhile_append_of_pos digits, List.takeWhile_cons_of_neg (by decide), List.append_nil]
  have dropped : (decimal n ++ 93 :: rest).dropWhile isDigit = 93 :: rest := by
    rw [List.dropWhile_append_of_pos digits, List.dropWhile_cons_of_neg (by decide)]
  have kept : (decimal n ++ 93 :: rest).dropWhile isSpace = decimal n ++ 93 :: rest := by
    rw [split, List.cons_append, List.dropWhile_cons_of_neg (by simp [space])]
  have unsigned : splitSign (decimal n ++ 93 :: rest) = (false, decimal n ++ 93 :: rest) := by
    rw [split, List.cons_append]
    exact splitSign_unsigned minus plus
  have scanned : scanUlong (decimal n ++ 93 :: rest) = some (n, 93 :: rest) := by
    unfold scanUlong
    simp only [kept, unsigned, taken, dropped, if_neg filled, value, if_neg (Nat.not_le.mpr bound),
      Bool.false_eq_true, if_false]
  simp [readIndex, scanned]

section

variable {notFound : Val} {fuel : Nat} {addr : Nat} {rest : Text}

/-- The next step of a path, if there is one, begins with a dot. -/
def Resumes (rest : Text) : Prop :=
  rest = [] ∨ rest.head? = some 46

theorem Resumes.takeWhile_key (resumes : Resumes rest) (undotted : 46 ∉ key) :
    (key ++ rest).takeWhile (· != 46) = key ∧ (key ++ rest).dropWhile (· != 46) = rest := by
  have inside : ∀ byte ∈ key, (byte != 46) = true := by
    intro byte member
    simp only [bne_iff_ne]
    rintro rfl
    exact undotted member
  rw [List.takeWhile_append_of_pos inside, List.dropWhile_append_of_pos inside]
  match rest, resumes with
  | [], _ => simp
  | byte :: rest, .inr dot =>
    obtain rfl : byte = 46 := by simpa using dot
    simp

theorem Resumes.readKey_key (resumes : Resumes rest) (undotted : 46 ∉ key)
    (short : key.length ≤ 2147483647) : readKey (key ++ rest) = some key := by
  have whole : truncateInt key.length = key.length := by
    unfold truncateInt
    rw [Int.bmod_eq_of_le] <;> omega
  rw [readKey, (resumes.takeWhile_key undotted).1, whole, printPrefix, if_neg (by omega),
    Int.toNat_natCast, List.take_left, gocSprintf, if_pos short]

theorem getInTurn_key (expressible : Expressible key)
    (short : key.length ≤ 2147483647) (resumes : Resumes rest) :
    getInTurn notFound 46 (key ++ rest) (.dict addr entries) =
      match entries.find? fun entry => entry.1 = key with
      | none => some (.returned notFound)
      | some entry =>
        if sameAddress entry.2 notFound then some (.returned entry.2)
        else some (.next rest entry.2) := by
  have filled := expressible.filled
  have plain : (key ++ rest).head? ≠ some 91 := by
    rw [List.head?_append_of_ne_nil _ filled]
    exact expressible.plain
  obtain ⟨segment, remains⟩ := resumes.takeWhile_key expressible.undotted
  have read := resumes.readKey_key expressible.undotted short
  unfold getInTurn
  simp only [ne_eq, not_true_eq_false, if_false, List.append_eq_nil_iff, filled, false_and, isNull,
    Bool.false_eq_true, plain, segment, read, remains]

theorem getInTurn_index (bound : i < 2 ^ 64) (element : elems[i]? = some elem) :
    getInTurn notFound 46 (91 :: (decimal i ++ 93 :: rest)) (.arr addr rep elems) =
      some (.next rest elem) := by
  unfold getInTurn
  simp only [ne_eq, not_true_eq_false, if_false, reduceCtorEq, isNull, Bool.false_eq_true,
    List.head?_cons, if_true, List.tail_cons, readIndex_decimal bound, element]

end

inductive Step where
  | key (name : Text)
  | index (i : Nat)

def Step.text : Step → Text
  | .key name => 46 :: name
  | .index i => 46 :: 91 :: (decimal i ++ [93])

def pathText (steps : List Step) : Text :=
  steps.flatMap Step.text

theorem pathText_cons :
    pathText (step :: steps) = step.text ++ pathText steps :=
  List.flatMap_cons

inductive Leads : Val → List Step → Val → Prop where
  | here : Leads val [] val
  | key {addr : Nat} {entries : List (Text × Val)} {name : Text} {entry : Text × Val}
      (found : entries.find? (fun entry => entry.1 = name) = some entry)
      (expressible : Expressible name) (leads : Leads entry.2 steps last) :
      Leads (.dict addr entries) (.key name :: steps) last
  | index {addr : Nat} {rep : ArrRep} {elems : List Val} {i : Nat} {elem : Val}
      (found : elems[i]? = some elem) (bound : i < 2 ^ 64) (leads : Leads elem steps last) :
      Leads (.arr addr rep elems) (.index i :: steps) last

inductive HoldsVal : Val → Val → Prop where
  | entry (member : entry ∈ entries) : HoldsVal (.dict addr entries) entry.2
  | elem (member : elem ∈ elems) : HoldsVal (.arr addr rep elems) elem

def isContainer : Val → Bool
  | .dict _ _ | .arr _ _ _ => true
  | _ => false

/-- The pointer for a missing value is none of the dictionaries and arrays in
the root. -/
def Fresh (root notFound : Val) : Prop :=
  ∀ part, Relation.TransGen HoldsVal root part → isContainer part = true →
    sameAddress part notFound = false

theorem Fresh.inner (fresh : Fresh root notFound)
    (holds : HoldsVal root part) : Fresh part notFound :=
  fun inner path => fresh inner (.head holds path)

theorem Fresh.next (fresh : Fresh root notFound)
    (holds : HoldsVal root part) (container : isContainer part = true) :
    sameAddress part notFound = false :=
  fresh part (.single holds) container

/-- No step goes on from a value that is neither a dictionary nor an array. -/
theorem Leads.leaf (leads : Leads val steps last)
    (leaf : isContainer val = false) : steps = [] ∧ last = val := by
  cases leads with
  | here => exact ⟨rfl, rfl⟩
  | key => cases leaf
  | index => cases leaf

theorem steps_resume (steps : List Step) (resumes : Resumes tail) :
    Resumes (pathText steps ++ tail) := by
  match steps with
  | [] => exact resumes
  | .key _ :: _ | .index _ :: _ => exact .inr (by simp [pathText, Step.text])

theorem Leads.inside (leads : Leads root steps last) :
    Relation.ReflTransGen HoldsVal root last := by
  induction leads with
  | here => exact .refl
  | key found _ _ ih => exact .head (.entry (List.mem_of_find?_eq_some found)) ih
  | index found _ _ ih => exact .head (.elem (List.mem_of_getElem? found)) ih

theorem Leads.trans (leads : Leads root steps middle) (rest : Leads middle others last) :
    Leads root (steps ++ others) last := by
  induction leads with
  | here => exact rest
  | key found expressible _ ih => exact .key found expressible (ih rest)
  | index found bound _ ih => exact .index found bound (ih rest)

theorem pathText_append :
    pathText (steps ++ others) = pathText steps ++ pathText others :=
  List.flatMap_append

/-- The lookup follows the steps, and goes on where they lead to a dictionary or
an array. -/
theorem getInFrom_leads (leads : Leads root steps last) (fresh : Fresh root notFound)
    (resumes : Resumes tail) (ends : tail = [] ∨ isContainer last = true)
    (short : (pathText steps).length ≤ 2147483647) (fuel : Nat) :
    getInFrom notFound (fuel + steps.length) (pathText steps ++ tail) root =
      getInFrom notFound fuel tail last := by
  induction leads with
  | here => rfl
  | @key steps last addr entries name entry found expressible leads ih =>
    have holds : HoldsVal (.dict addr entries) entry.2 := .entry (List.mem_of_find?_eq_some found)
    rw [pathText_cons, List.length_append, Step.text, List.length_cons] at short
    have turn : getInTurn notFound 46 (name ++ (pathText steps ++ tail)) (.dict addr entries) = _ :=
      getInTurn_key expressible (by omega) (steps_resume steps resumes)
    rw [pathText_cons]
    simp only [Step.text, List.length_cons, List.cons_append, List.append_assoc]
    rw [← Nat.add_assoc, getInFrom, turn, found]
    by_cases same : sameAddress entry.2 notFound = true
    · -- the pointer that is compared is not one to go on from
      have leaf : isContainer entry.2 = false := by
        by_contra container
        simp [fresh.next holds (by simpa using container)] at same
      obtain ⟨rfl, rfl⟩ := leads.leaf leaf
      obtain rfl : tail = [] := ends.resolve_right (by simp [leaf])
      simp only [same, if_true, getInFrom]
    · simp only [same, Bool.false_eq_true, if_false]
      exact ih (fresh.inner holds) ends (by omega)
  | @index steps last addr rep elems i elem found bound leads ih =>
    have holds : HoldsVal (.arr addr rep elems) elem := .elem (List.mem_of_getElem? found)
    rw [pathText_cons, List.length_append] at short
    rw [pathText_cons]
    simp only [Step.text, List.length_cons, List.cons_append, List.append_assoc, List.nil_append]
    rw [← Nat.add_assoc, getInFrom, getInTurn_index bound found]
    exact ih (fresh.inner holds) ends (by omega)

theorem length_le_pathText (steps : List Step) : steps.length ≤ (pathText steps).length := by
  induction steps with
  | nil => exact Nat.zero_le _
  | cons step steps ih =>
    have filled : 1 ≤ step.text.length := by
      cases step <;> simp [Step.text]
    rw [pathText_cons, List.length_append, List.length_cons]
    omega

/-- A path that leads to a value is looked up with that value. -/
theorem gocDictGetIn_leads (leads : Leads root steps last) (fresh : Fresh root notFound)
    (short : (pathText steps).length ≤ 2147483647) :
    gocDictGetIn root (pathText steps) notFound = some last := by
  have enough := length_le_pathText steps
  obtain ⟨fuel, total⟩ := Nat.exists_eq_add_of_le' enough
  have followed : getInFrom notFound (fuel + steps.length) (pathText steps ++ []) root = _ :=
    getInFrom_leads leads fresh (.inl rfl) (.inl rfl) short fuel
  rw [List.append_nil] at followed
  rw [gocDictGetIn, total, followed, getInFrom]

/-- The path of a missing key is looked up with the pointer for missing values,
or with `NULL` where that is the value of the key. -/
theorem gocDictGetIn_missing (leads : Leads root steps (.dict addr entries))
    (fresh : Fresh root notFound) (expressible : Expressible key)
    (missing : dictGet entries key = .null)
    (short : (pathText steps ++ 46 :: key).length ≤ 2147483647) :
    gocDictGetIn root (pathText steps ++ 46 :: key) notFound = some notFound ∨
      gocDictGetIn root (pathText steps ++ 46 :: key) notFound = some .null := by
  rw [List.length_append, List.length_cons] at short
  have enough := length_le_pathText steps
  obtain ⟨fuel, total⟩ : ∃ fuel, (pathText steps ++ 46 :: key).length = fuel + 1 + steps.length := by
    refine ⟨(pathText steps).length - steps.length + key.length, ?_⟩
    rw [List.length_append, List.length_cons]
    omega
  have followed : getInFrom notFound (fuel + 1 + steps.length) (pathText steps ++ 46 :: key) root = _ :=
    getInFrom_leads leads fresh (.inr rfl) (.inr rfl) (by omega) (fuel + 1)
  have turn : getInTurn notFound 46 (key ++ []) (.dict addr entries) = _ :=
    getInTurn_key expressible (by omega) (.inl rfl)
  rw [List.append_nil] at turn
  rw [gocDictGetIn, total, followed, getInFrom, turn]
  unfold dictGet at missing
  cases search : entries.find? fun entry => entry.1 = key with
  | none => exact .inl rfl
  | some entry =>
    rw [search] at missing
    right
    simp only [missing]
    by_cases same : sameAddress Val.null notFound = true
    · simp only [same, if_true]
    · simp only [same, Bool.false_eq_true, if_false, getInFrom]

end Libgoc.Schema
