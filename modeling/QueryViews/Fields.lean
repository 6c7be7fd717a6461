/-! Values under distinct keys, in the order of the keys. That no key comes twice is part of the
type, so what rebuilds fields keeps it and what reads them can rely on it. -/

namespace QueryViews

inductive Fields (α : Type) : List String → Type where
  | nil : Fields α []
  | cons {keys : List String} (key : String) (value : α) (rest : Fields α keys)
    (fresh : key ∉ keys) : Fields α (key :: keys)

namespace Fields
variable {α β : Type}

def toList {keys : List String} : Fields α keys → List (String × α)
  | nil => []
  | cons key value rest _ => (key, value) :: rest.toList

def map {keys : List String} (f : String × α → β) (fields : Fields α keys) : List β :=
  fields.toList.map f

def lookup {keys : List String} (name : String) (fields : Fields α keys) : Option α :=
  fields.toList.lookup name

theorem nodup {keys : List String} : Fields α keys → keys.Nodup
  | nil => List.nodup_nil
  | cons _ _ rest fresh => List.nodup_cons.2 ⟨fresh, rest.nodup⟩

def pair (first : String) (a : α) (second : String) (b : α) (distinct : first ≠ second) :
    Fields α [first, second] :=
  cons first a (cons second b nil List.not_mem_nil) (by simpa using distinct)

def ofList : (entries : List (String × α)) → (entries.map Prod.fst).Nodup →
    Fields α (entries.map Prod.fst)
  | [], _ => nil
  | (key, value) :: rest, distinct =>
    cons key value (ofList rest (List.nodup_cons.1 distinct).2) (List.nodup_cons.1 distinct).1

theorem toList_ofList (entries : List (String × α)) (distinct : (entries.map Prod.fst).Nodup) :
    (ofList entries distinct).toList = entries := by
  induction entries with
  | nil => rfl
  | cons entry rest ih => rw [ofList, toList, ih]

/-- Sets an entry: at its place if the key is known, else behind the others. -/
def setEntry (key : String) (value : α) : List (String × α) → List (String × α)
  | [] => [(key, value)]
  | (k, v) :: rest => if k = key then (k, value) :: rest else (k, v) :: setEntry key value rest

theorem mem_keys_setEntry {key name : String} {value : α} {entries : List (String × α)}
    (member : name ∈ (setEntry key value entries).map Prod.fst) :
    name = key ∨ name ∈ entries.map Prod.fst := by
  induction entries with
  | nil => exact .inl (List.mem_singleton.1 member)
  | cons entry rest ih =>
    rw [setEntry] at member
    split at member
    · exact .inr member
    · rcases List.mem_cons.1 member with same | later
      · exact .inr (List.mem_cons.2 (.inl same))
      · exact (ih later).imp_right (List.mem_cons_of_mem _)

theorem nodup_setEntry {key : String} {value : α} {entries : List (String × α)}
    (distinct : (entries.map Prod.fst).Nodup) :
    ((setEntry key value entries).map Prod.fst).Nodup := by
  induction entries with
  | nil => exact List.nodup_cons.2 ⟨List.not_mem_nil, List.nodup_nil⟩
  | cons entry rest ih =>
    obtain ⟨fresh, others⟩ := List.nodup_cons.1 distinct
    rw [setEntry]
    split
    · exact distinct
    next different =>
      refine List.nodup_cons.2 ⟨fun member => ?_, ih others⟩
      exact (mem_keys_setEntry member).elim different fresh

/-- The entries without repetitions: a repeated key keeps its first place and takes its last
value. -/
def settle (entries : List (String × α)) : List (String × α) :=
  entries.foldl (fun settled entry => setEntry entry.1 entry.2 settled) []

theorem nodup_settle (entries : List (String × α)) : ((settle entries).map Prod.fst).Nodup := by
  suffices each : ∀ settled : List (String × α), (settled.map Prod.fst).Nodup →
      ((entries.foldl (fun settled entry => setEntry entry.1 entry.2 settled) settled).map
        Prod.fst).Nodup from each [] List.nodup_nil
  induction entries with
  | nil => exact fun _ distinct => distinct
  | cons entry rest ih => exact fun _ distinct => ih _ (nodup_setEntry distinct)

theorem setEntry_of_fresh {key : String} {value : α} {entries : List (String × α)}
    (fresh : key ∉ entries.map Prod.fst) :
    setEntry key value entries = entries ++ [(key, value)] := by
  induction entries with
  | nil => rfl
  | cons entry rest ih =>
    obtain ⟨different, later⟩ := not_or.1 (mt List.mem_cons.2 fresh)
    rw [setEntry, if_neg (Ne.symm different), ih later, List.cons_append]

/-- Where no key is repeated, there is nothing to settle. -/
theorem settle_of_nodup {entries : List (String × α)} (distinct : (entries.map Prod.fst).Nodup) :
    settle entries = entries := by
  suffices each : ∀ settled : List (String × α), ((settled ++ entries).map Prod.fst).Nodup →
      entries.foldl (fun settled entry => setEntry entry.1 entry.2 settled) settled =
        settled ++ entries from each [] distinct
  clear distinct
  induction entries with
  | nil => exact fun settled _ => (List.append_nil settled).symm
  | cons entry rest ih =>
    intro settled distinct
    have fresh : entry.1 ∉ settled.map Prod.fst := by
      rw [List.map_append] at distinct
      exact fun member => (List.nodup_append.1 distinct).2.2 _ member _ List.mem_cons_self rfl
    rw [List.foldl_cons, setEntry_of_fresh fresh, ih _ (by rwa [← List.append_cons]),
      ← List.append_cons]

end Fields
end QueryViews
