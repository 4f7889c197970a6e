import Kookr.Lib.IsoDate
import Kookr.Lib.JsonRoundtrip

/-! Reading the members of a JSON object by name, and what is read of an object that was
written member by member. -/

namespace Kookr.Lib.Json

def textAt (j : Json) (k : String) : Option String := (j.get k).bind asStr

def arrayAt (j : Json) (k : String) : Option (List Json) := (j.get k).bind asArr

def dateAt (j : Json) (k : String) : Option Timestamp := (textAt j k).bind fun t => IsoDate.dateParse t.toList

/-- A `Date` as `JSON.stringify` writes it. -/
def date (t : Timestamp) : Json := .str (String.ofList (IsoDate.toISOString t))

/-- The members of an object, but for those of these names. -/
def others (named : List String) : Json → List (String × Json)
  | .obj members => members.filter fun m => m.1 ∉ named
  | _ => []

@[simp] theorem lookup_nil (k : String) : Json.lookup k [] = none := rfl

theorem foldl_lookup (k : String) (ms : List (String × Json)) (acc : Option Json) :
    ms.foldl (fun acc m => if m.1 = k then some m.2 else acc) acc = (Json.lookup k ms).or acc := by
  induction ms generalizing acc with
  | nil => rfl
  | cons m ms ih =>
    simp only [Json.lookup, List.foldl_cons]
    rw [ih, ih (if m.1 = k then some m.2 else none), Option.or_assoc]
    split <;> rfl

@[simp] theorem lookup_cons (k k' : String) (v : Json) (ms : List (String × Json)) :
    Json.lookup k ((k', v) :: ms) = (Json.lookup k ms).or (if k' = k then some v else none) :=
  foldl_lookup k ms _

@[simp] theorem lookup_append (k : String) (ms ms' : List (String × Json)) :
    Json.lookup k (ms ++ ms') = (Json.lookup k ms').or (Json.lookup k ms) := by
  rw [← foldl_lookup, Json.lookup, List.foldl_append]
  rfl

@[simp] theorem lookup_opt (k k' : String) (v : Option Json) :
    Json.lookup k (opt k' v) = if k' = k then v else none := by
  cases v with
  | none | some v => simp [opt]

@[simp] theorem get_obj (k : String) (ms : List (String × Json)) : (Json.obj ms).get k = Json.lookup k ms := rfl

@[simp] theorem asStr_str (s : String) : (Json.str s).asStr = some s := rfl
@[simp] theorem asNum_num (n : NumLit) : (Json.num n).asNum = some n := rfl
@[simp] theorem asArr_arr (l : List Json) : (Json.arr l).asArr = some l := rfl

@[simp] theorem bind_asStr_map (v : Option String) : (v.map Json.str).bind Json.asStr = v := by
  cases v <;> rfl

@[simp] theorem bind_asNum_map (v : Option NumLit) : (v.map Json.num).bind Json.asNum = v := by
  cases v <;> rfl

@[simp] theorem asStr_date (t : Timestamp) :
    ((date t).asStr.bind fun s => IsoDate.dateParse s.toList) = some t := by
  simp [date, IsoDate.dateParse_toISOString]

@[simp] theorem bind_date_map (v : Option Timestamp) :
    ((v.map date).bind asStr).bind (fun s => IsoDate.dateParse s.toList) = v := by
  cases v with
  | none => rfl
  | some t => exact asStr_date t

theorem mapM_map_roundtrip {α β : Type} (f : α → β) (g : β → Option α) (h : ∀ a, g (f a) = some a)
    (l : List α) : (l.map f).mapM g = some l := by
  induction l with
  | nil => rfl
  | cons a l ih => simp [h, ih]

/-- The members of names that are read are told apart from the others. -/
theorem filter_others {named : List String} {ms rest : List (String × Json)} (hms : ∀ m ∈ ms, m.1 ∈ named)
    (hrest : ∀ m ∈ rest, m.1 ∉ named) : others named (.obj (ms ++ rest)) = rest := by
  dsimp only [others]
  rw [List.filter_append, List.filter_eq_nil_iff.2, List.nil_append]
  · simpa using hrest
  · intro m hm
    simpa using hms m hm

theorem lookup_of_not_mem {k : String} {ms : List (String × Json)} (h : ∀ m ∈ ms, m.1 ≠ k) : lookup k ms = none := by
  induction ms with
  | nil => rfl
  | cons m ms ih =>
    obtain ⟨k', v⟩ := m
    rw [lookup_cons, ih fun m hm => h m (List.mem_cons_of_mem _ hm), if_neg (h (k', v) List.mem_cons_self), Option.none_or]

end Kookr.Lib.Json
