import ThesadaApp.JsonForm

/-!
The places of a JSON value, and what it means that one value is another with strings emptied at some places: every
object keeps its keys, every array its length and every other leaf its value.
-/

namespace ThesadaApp.Json

inductive Step where
  | key (k : String)
  | index (i : Nat)
  deriving DecidableEq

def index : Json → Nat → Option Json
  | .cons head _, 0 => some head
  | .cons _ tail, i + 1 => tail.index i
  | _, _ => none

/-- What stands at the end of a path. -/
def lookup : List Step → Json → Option Json
  | [], j => some j
  | .key k :: p, j => (j.get k).bind (lookup p)
  | .index i :: p, j => (j.index i).bind (lookup p)

/-- `m[key] = v` for a key that the object has. -/
def set : Json → String → Json → Json
  | .field k v' rest, key, v => if k = key then .field k v rest else .field k v' (rest.set key v)
  | j, _, _ => j

/-- `x, _ := v.([]any)`. -/
def elements : Json → List Json
  | .cons head tail => head :: tail.elements
  | _ => []

def isLeaf : Json → Bool
  | .null | .bool _ | .number _ | .string _ => true
  | _ => false

def isObject : Json → Bool
  | .empty | .field .. => true
  | _ => false

def length : Json → Nat
  | .cons _ tail => tail.length + 1
  | _ => 0

inductive Shape where
  | leaf
  | array (length : Nat)
  | object (keys : List String)
  deriving DecidableEq

def shape : Json → Shape
  | .nil => .array 0
  | .cons _ tail => .array (tail.length + 1)
  | .empty => .object []
  | .field k _ rest => .object (k :: rest.keys)
  | _ => .leaf

section lookups

variable {j : Json} {k : String} {v : Json} {p : List Step}

theorem keys_of_shape {j' : Json} (h : j'.shape = j.shape) : j'.keys = j.keys := by
  have hkeys : ∀ x : Json, x.keys = match x.shape with
      | .object ks => ks
      | _ => [] := by
    intro x
    cases x <;> rfl
  rw [hkeys j', hkeys j, h]

theorem length_of_shape {j' : Json} (h : j'.shape = j.shape) : j'.length = j.length := by
  have hlength : ∀ x : Json, x.length = match x.shape with
      | .array n => n
      | _ => 0 := by
    intro x
    cases x <;> rfl
  rw [hlength j', hlength j, h]

theorem isLeaf_of_shape {j' : Json} (h : j'.shape = j.shape) (hleaf : j'.isLeaf = true) : j.isLeaf = true := by
  have hiff : ∀ x : Json, x.isLeaf = true ↔ x.shape = .leaf := by
    intro x
    cases x <;> simp [isLeaf, shape]
  rw [hiff] at hleaf ⊢
  exact h.symm.trans hleaf

theorem lookup_leaf (hleaf : j.isLeaf = true) {step : Step} : j.lookup (step :: p) = none := by
  cases step <;> cases j <;> first | rfl | cases hleaf

theorem set_get (hv : j.get k = some v) : j.set k v = j := by
  induction j with
  | field key value rest _ ih =>
      rw [get] at hv
      rw [set]
      split_ifs at hv ⊢
      · rw [Option.some.inj hv]
      · rw [ih hv]
  | _ => cases hv

theorem keys_set : (j.set k v).keys = j.keys := by
  induction j with
  | field key value rest _ ih =>
      rw [set]
      split_ifs
      · rfl
      · rw [keys, keys, ih]
  | _ => rfl

theorem wellFormed_set {F : FloatFormat} {part : Part} (hj : WellFormed F part j) (hv : WellFormed F .value v) :
    WellFormed F part (j.set k v) := by
  induction j generalizing part with
  | field key value rest _ ih =>
      obtain ⟨hpart, hlt, hvalue, hrest⟩ := hj
      rw [set]
      split_ifs
      · exact ⟨hpart, hlt, hv, hrest⟩
      · refine ⟨hpart, ?_, hvalue, ih hrest⟩
        rw [keys_set]
        exact hlt
  | _ => exact hj

theorem wellFormed_get {F : FloatFormat} {part : Part} (hj : WellFormed F part j) (hv : j.get k = some v) :
    WellFormed F .value v := by
  induction j generalizing part with
  | field key value rest _ ih =>
      rw [get] at hv
      split_ifs at hv
      · exact Option.some.inj hv ▸ hj.2.2.1
      · exact ih hj.2.2.2 hv
  | _ => cases hv

theorem mem_keys_of_get (hv : j.get k = some v) : k ∈ j.keys := by
  induction j with
  | field key value rest _ ih =>
      rw [get] at hv
      split_ifs at hv with hkey
      · exact hkey ▸ List.mem_cons_self
      · exact List.mem_cons_of_mem _ (ih hv)
  | _ => cases hv

theorem getElem?_elements (i : Nat) : j.elements[i]? = j.index i := by
  induction j generalizing i with
  | cons head tail _ ih =>
      cases i with
      | zero => rfl
      | succ i => exact ih i
  | _ => rfl

theorem isObject_of_get (hv : j.get k = some v) : j.isObject = true := by
  cases j with
  | field => rfl
  | _ => cases hv

/-- An object has nothing at an index, and an array nothing at a key. -/
theorem index_of_members {F : FloatFormat} (hj : WellFormed F .members j) (i : Nat) : j.index i = none := by
  cases j with
  | cons => exact absurd rfl hj.1
  | _ => rfl

theorem get_of_elements {F : FloatFormat} (hj : WellFormed F .elements j) (k : String) : j.get k = none := by
  cases j with
  | field => exact absurd rfl hj.1
  | _ => rfl

/-- A member that is nested no deeper than the one it takes the place of. -/
theorem depth_set_le {w : Json} (hv : j.get k = some v) (hw : w.depth ≤ v.depth) : (j.set k w).depth ≤ j.depth := by
  induction j with
  | field key value rest _ ih =>
      rw [get] at hv
      rw [set]
      split_ifs at hv ⊢
      · obtain rfl := Option.some.inj hv
        simp only [depth]
        omega
      · have hrest := ih hv
        simp only [depth]
        omega
  | _ => cases hv

section mapNumbers

variable {f : Rat → Rat}

theorem length_mapNumbers : (j.mapNumbers f).length = j.length := by
  induction j with
  | cons head tail _ ih => rw [mapNumbers, length, length, ih]
  | _ => rfl

theorem shape_mapNumbers : (j.mapNumbers f).shape = j.shape := by
  cases j with
  | cons head tail => rw [mapNumbers, shape, shape, length_mapNumbers]
  | field k v rest => rw [mapNumbers, shape, shape, keys_mapNumbers]
  | _ => rfl

theorem isLeaf_mapNumbers : (j.mapNumbers f).isLeaf = j.isLeaf := by cases j <;> rfl

theorem index_mapNumbers (i : Nat) : (j.mapNumbers f).index i = (j.index i).map (mapNumbers f) := by
  induction j generalizing i with
  | cons head tail _ ih =>
      cases i with
      | zero => rfl
      | succ i => exact ih i
  | _ => rfl

theorem lookup_mapNumbers (p : List Step) : (j.mapNumbers f).lookup p = (j.lookup p).map (mapNumbers f) := by
  induction p generalizing j with
  | nil => rfl
  | cons step p ih =>
      cases step with
      | key k =>
          rw [lookup, lookup, get_mapNumbers, Option.map_bind, Option.bind_map]
          exact Option.bind_congr fun x _ => ih
      | index i =>
          rw [lookup, lookup, index_mapNumbers, Option.map_bind, Option.bind_map]
          exact Option.bind_congr fun x _ => ih

end mapNumbers

end lookups

/-- The value with strings emptied at some of the places. -/
structure Emptied (S : List Step → Prop) (j j' : Json) : Prop where
  shape : ∀ p, (j'.lookup p).map Json.shape = (j.lookup p).map Json.shape
  leaf : ∀ p v, j.lookup p = some v → v.isLeaf = true →
    j'.lookup p = some v ∨ S p ∧ (∃ s, v = .string s) ∧ j'.lookup p = some (.string "")

namespace Emptied

variable {S S' : List Step → Prop} {j j' j'' : Json}

theorem refl (S : List Step → Prop) (j : Json) : Emptied S j j := ⟨fun _ => rfl, fun _ _ h _ => .inl h⟩

theorem mono (h : Emptied S j j') (hS : ∀ p, S p → S' p) : Emptied S' j j' :=
  ⟨h.shape, fun p v hv hleaf => (h.leaf p v hv hleaf).imp_right fun ⟨hp, hrest⟩ => ⟨hS p hp, hrest⟩⟩

theorem trans (h : Emptied S j j') (h' : Emptied S j' j'') : Emptied S j j'' := by
  refine ⟨fun p => (h'.shape p).trans (h.shape p), fun p v hv hleaf => ?_⟩
  rcases h.leaf p v hv hleaf with hv' | ⟨hp, hstring, hv'⟩
  · exact h'.leaf p v hv' hleaf
  · refine .inr ⟨hp, hstring, ?_⟩
    rcases h'.leaf p _ hv' rfl with hv'' | ⟨-, -, hv''⟩ <;> exact hv''

theorem shape_eq (h : Emptied S j j') : j'.shape = j.shape := Option.some.inj (h.shape [])

/-- A leaf of the value with strings emptied comes from a leaf. -/
theorem leaf_inv (h : Emptied S j j') {p : List Step} {v' : Json} (hv' : j'.lookup p = some v')
    (hleaf : v'.isLeaf = true) :
    ∃ v, j.lookup p = some v ∧ v.isLeaf = true ∧ (v' = v ∨ S p ∧ (∃ s, v = .string s) ∧ v' = .string "") := by
  have hshape := h.shape p
  rw [hv', Option.map_some] at hshape
  obtain ⟨v, hv, hvv'⟩ := Option.map_eq_some_iff.mp hshape.symm
  have hleaf' := isLeaf_of_shape hvv'.symm hleaf
  refine ⟨v, hv, hleaf', ?_⟩
  rcases h.leaf p v hv hleaf' with hsame | ⟨hp, hstring, hempty⟩
  · rw [hv'] at hsame
    exact .inl (Option.some.inj hsame)
  · rw [hv'] at hempty
    exact .inr ⟨hp, hstring, Option.some.inj hempty⟩

theorem string (hS : S []) (s : String) : Emptied S (.string s) (.string "") := by
  refine ⟨fun p => ?_, fun p v hv hleaf => ?_⟩
  · cases p with
    | nil => rfl
    | cons step p => rw [lookup_leaf rfl, lookup_leaf rfl]
  · cases p with
    | nil => exact .inr ⟨hS, ⟨s, (Option.some.inj hv).symm⟩, rfl⟩
    | cons step p =>
        rw [lookup_leaf rfl] at hv
        cases hv

theorem field {k : String} {v v' rest rest' : Json} (hv : Emptied (fun p => S (.key k :: p)) v v')
    (hrest : Emptied S rest rest') : Emptied S (.field k v rest) (.field k v' rest') := by
  have hkey : ∀ {k' p} {x r : Json}, (Json.field k x r).lookup (.key k' :: p) =
      if k = k' then x.lookup p else r.lookup (.key k' :: p) := by
    intro k' p x r
    rw [lookup, get]
    split_ifs
    · rfl
    · rw [lookup]
  refine ⟨fun p => ?_, fun p x hx hleaf => ?_⟩
  · rcases p with _ | ⟨k' | i, p⟩
    · simp only [lookup, Option.map_some, Json.shape, keys_of_shape hrest.shape_eq]
    · rw [hkey, hkey]
      split_ifs
      · exact hv.shape p
      · exact hrest.shape (.key k' :: p)
    · rfl
  · rcases p with _ | ⟨k' | i, p⟩
    · obtain rfl := Option.some.inj hx
      cases hleaf
    · rw [hkey] at hx ⊢
      split_ifs at hx ⊢ with hk
      · subst hk
        exact hv.leaf p x hx hleaf
      · exact hrest.leaf (.key k' :: p) x hx hleaf
    · cases hx

/-- Of an array the places are told by their last steps only: the tail has them shifted. -/
theorem cons {head head' tail tail' : Json} (hhead : Emptied (fun p => S (.index 0 :: p)) head head')
    (htail : Emptied S tail tail') (hS : ∀ i p, S (.index i :: p) → S (.index (i + 1) :: p)) :
    Emptied S (.cons head tail) (.cons head' tail') := by
  refine ⟨fun p => ?_, fun p x hx hleaf => ?_⟩
  · rcases p with _ | ⟨k | _ | i, p⟩
    · simp only [lookup, Option.map_some, Json.shape, length_of_shape htail.shape_eq]
    · rfl
    · exact hhead.shape p
    · exact htail.shape (.index i :: p)
  · rcases p with _ | ⟨k | _ | i, p⟩
    · obtain rfl := Option.some.inj hx
      cases hleaf
    · cases hx
    · exact hhead.leaf p x hx hleaf
    · exact (htail.leaf (.index i :: p) x hx hleaf).imp_right fun ⟨hp, hmore⟩ => ⟨hS i p hp, hmore⟩

theorem set {k : String} {v v' : Json} (hk : j.get k = some v) (hv : Emptied (fun p => S (.key k :: p)) v v') :
    Emptied S j (j.set k v') := by
  induction j with
  | field key value rest _ ih =>
      rw [get] at hk
      rw [Json.set]
      split_ifs at hk ⊢ with hkey
      · subst hkey
        obtain rfl := Option.some.inj hk
        exact hv.field (.refl S rest)
      · exact (Emptied.refl _ value).field (ih hk)
  | _ => cases hk

end Emptied

end ThesadaApp.Json
