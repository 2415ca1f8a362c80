import Mathlib.Data.Finmap
import Mathlib.Data.List.Sort
import Mathlib.Tactic

/-!
Python's collections.

* `Dict`: a `dict` read by key only, so that two are equal when they have the same items;
* `OrderedDict`: a `dict` whose items are read in the order of their first insertion;
* `sortedBy`: `sorted` with a key, which is stable;
* `sortedBy_congr`, `tally_congr`: what a permutation of the input leaves unchanged.
-/

namespace Python

variable {α κ ν : Type}

/-! ### Sorting -/

section Sorting

variable [LinearOrder κ]

/-- `sorted(l, key=key)`. -/
def sortedBy (key : α → κ) (l : List α) : List α := l.insertionSort fun a b => key a ≤ key b

lemma sortedBy_perm (key : α → κ) (l : List α) : (sortedBy key l).Perm l :=
  List.perm_insertionSort _ l

@[simp] lemma mem_sortedBy {key : α → κ} {l : List α} {a : α} : a ∈ sortedBy key l ↔ a ∈ l :=
  (sortedBy_perm key l).mem_iff

lemma map_sortedBy (key : α → κ) (l : List α) :
    (sortedBy key l).map key = (l.map key).insertionSort (· ≤ ·) :=
  List.map_insertionSort _ _ key l fun _ _ _ _ => Iff.rfl

lemma sortedBy_pairwise (key : α → κ) (l : List α) :
    (sortedBy key l).Pairwise fun a b => key a ≤ key b := by
  have hsorted := List.pairwise_insertionSort (· ≤ ·) (l.map key)
  rw [← map_sortedBy, List.pairwise_map] at hsorted
  exact hsorted

/-- The keys come out in the same order, whatever the order of the input. -/
lemma map_sortedBy_congr (key : α → κ) {l l' : List α} (hp : l.Perm l') :
    (sortedBy key l).map key = (sortedBy key l').map key := by
  rw [map_sortedBy, map_sortedBy]
  refine List.Perm.eq_of_pairwise' (List.pairwise_insertionSort _ _) (List.pairwise_insertionSort _ _)
    ((List.perm_insertionSort _ _).trans ?_)
  exact (hp.map key).trans (List.perm_insertionSort _ _).symm

/-- Where the keys tell the elements apart, sorting forgets the order of the input. -/
theorem sortedBy_congr (key : α → κ) {l l' : List α} (hp : l.Perm l')
    (hkey : ∀ a ∈ l, ∀ b ∈ l, key a = key b → a = b) : sortedBy key l = sortedBy key l' := by
  refine List.Perm.eq_of_pairwise ?_ (sortedBy_pairwise key l) (sortedBy_pairwise key l')
    ((sortedBy_perm key l).trans (hp.trans (sortedBy_perm key l').symm))
  intro a b ha hb hab hba
  exact hkey a (mem_sortedBy.1 ha) b (hp.mem_iff.2 (mem_sortedBy.1 hb)) (le_antisymm hab hba)

end Sorting

/-! ### Dictionaries read by key -/

section Dict

variable [DecidableEq κ]

abbrev Dict (κ ν : Type) := Finmap fun _ : κ => ν

/-- `{key: value for key, value in items}`: a later item replaces an earlier one. -/
def Dict.ofItems (items : List (κ × ν)) : Dict κ ν :=
  items.foldl (fun d item => d.insert item.1 item.2) ∅

/-- `d.get(key, default)`. -/
def Dict.getD (d : Dict κ ν) (key : κ) (default : ν) : ν := (d.lookup key).getD default

lemma lookup_foldl_insert (items : List (κ × ν)) (d : Dict κ ν) (key : κ) :
    (items.foldl (fun d item => d.insert item.1 item.2) d).lookup key
      = ((items.reverse.find? fun item => item.1 = key).map Prod.snd).or (d.lookup key) := by
  induction items generalizing d with
  | nil => simp
  | cons item items ih =>
      rw [List.foldl_cons, ih, List.reverse_cons, List.find?_append]
      cases items.reverse.find? fun item => item.1 = key with
      | some found => simp
      | none =>
          by_cases hkey : item.1 = key
          · subst hkey
            simp [Finmap.lookup_insert]
          · simp [hkey, Finmap.lookup_insert_of_ne d (Ne.symm hkey)]

/-- A key has the value of its last item. -/
lemma Dict.lookup_ofItems (items : List (κ × ν)) (key : κ) :
    (Dict.ofItems items).lookup key
      = (items.reverse.find? fun item => item.1 = key).map Prod.snd := by
  rw [Dict.ofItems, lookup_foldl_insert, Finmap.lookup_empty, Option.or_none]

/-- With distinct keys, each item is found. -/
lemma Dict.lookup_ofItems_of_mem {items : List (κ × ν)} (hn : (items.map Prod.fst).Nodup)
    {item : κ × ν} (hmem : item ∈ items) : (Dict.ofItems items).lookup item.1 = some item.2 := by
  rw [Dict.lookup_ofItems]
  cases hfind : items.reverse.find? fun other => other.1 = item.1 with
  | none =>
      rw [List.find?_eq_none] at hfind
      exact absurd (hfind item (List.mem_reverse.2 hmem)) (by simp)
  | some found =>
      have hfound := List.mem_reverse.1 (List.mem_of_find?_eq_some hfind)
      have hkey : found.1 = item.1 := by simpa using List.find?_some hfind
      rw [List.inj_on_of_nodup_map hn hfound hmem hkey, Option.map_some]

/-- The values of a dictionary are those of its keys. -/
lemma Dict.sum_entries {β : Type} [AddCommMonoid β] (f : ν → β) (d : Dict κ ν) :
    (d.entries.map fun entry => f entry.2).sum
      = ∑ key ∈ d.keys, ((d.lookup key).map f).getD 0 := by
  have hkeys : d.keys.val = d.entries.map Sigma.fst := by
    induction d using Finmap.induction_on with
    | H d => rfl
  rw [Finset.sum, hkeys, Multiset.map_map]
  refine congrArg Multiset.sum (Multiset.map_congr rfl fun entry hentry => ?_)
  have hlookup : d.lookup entry.1 = some entry.2 := Finmap.lookup_eq_some_iff.2 hentry
  simp [hlookup]

end Dict

/-! ### Dictionaries read in order -/

section OrderedDict

variable [DecidableEq κ]

/-- The items in the order of their insertion, one for each key. -/
structure OrderedDict (κ ν : Type) where
  items : List (κ × ν)
  nodup : (items.map Prod.fst).Nodup

/-- `d[key] = f(d.get(key, init))`. -/
def upsert (init : ν) (f : ν → ν) (key : κ) : List (κ × ν) → List (κ × ν)
  | [] => [(key, f init)]
  | item :: items =>
      if item.1 = key then (key, f item.2) :: items else item :: upsert init f key items

lemma keys_upsert (init : ν) (f : ν → ν) (key : κ) (items : List (κ × ν)) :
    (upsert init f key items).map Prod.fst
      = if key ∈ items.map Prod.fst then items.map Prod.fst else items.map Prod.fst ++ [key] := by
  induction items with
  | nil => simp [upsert]
  | cons item items ih =>
      rw [upsert]
      by_cases hkey : item.1 = key
      · simp [hkey]
      · rw [if_neg hkey, List.map_cons, ih]
        have hne : key ≠ item.1 := Ne.symm hkey
        simp only [List.map_cons, List.mem_cons, hne, false_or]
        split <;> simp

lemma lookup_cons_ite (item : κ × ν) (items : List (κ × ν)) (k : κ) :
    (item :: items).lookup k = if k = item.1 then some item.2 else items.lookup k := by
  obtain ⟨key, value⟩ := item
  by_cases hk : k = key
  · simp [hk]
  · simp [List.lookup_cons, beq_eq_false_iff_ne.2 hk, hk]

lemma lookup_upsert (init : ν) (f : ν → ν) (key k : κ) (items : List (κ × ν)) :
    (upsert init f key items).lookup k
      = if k = key then some (f ((items.lookup key).getD init)) else items.lookup k := by
  induction items with
  | nil => simp [upsert, lookup_cons_ite]
  | cons item items ih =>
      rw [upsert]
      by_cases hkey : item.1 = key
      · subst hkey
        rw [if_pos rfl, lookup_cons_ite, lookup_cons_ite, lookup_cons_ite, if_pos rfl]
        by_cases hk : k = item.1 <;> simp [hk]
      · rw [if_neg hkey, lookup_cons_ite, ih, lookup_cons_ite, lookup_cons_ite, if_neg (Ne.symm hkey)]
        by_cases hk : k = item.1
        · rw [if_pos hk, if_pos hk, if_neg (hk ▸ hkey)]
        · rw [if_neg hk, if_neg hk]

/-- With distinct keys, the items are what `lookup` finds. -/
lemma mem_iff_lookup {items : List (κ × ν)} (hn : (items.map Prod.fst).Nodup) (item : κ × ν) :
    item ∈ items ↔ items.lookup item.1 = some item.2 := by
  induction items with
  | nil => simp
  | cons first items ih =>
      rw [List.map_cons, List.nodup_cons] at hn
      rw [List.mem_cons, ih hn.2, lookup_cons_ite]
      by_cases hk : item.1 = first.1
      · rw [if_pos hk]
        constructor
        · rintro (rfl | hlater)
          · rfl
          · exact absurd (List.mem_map_of_mem ((ih hn.2).2 hlater)) (hk ▸ hn.1)
        · intro hv
          exact Or.inl (Prod.ext hk (Option.some.inj hv).symm)
      · rw [if_neg hk]
        exact or_iff_right fun h => hk (congrArg Prod.fst h)

namespace OrderedDict

def empty : OrderedDict κ ν := ⟨[], by simp⟩

def update (d : OrderedDict κ ν) (init : ν) (f : ν → ν) (key : κ) : OrderedDict κ ν where
  items := upsert init f key d.items
  nodup := by
    rw [keys_upsert]
    split
    · exact d.nodup
    · next hkey =>
      rw [← List.concat_eq_append]
      exact d.nodup.concat hkey

/-- `{key: value for key, value in items}`. -/
def ofItems (items : List (κ × ν)) : OrderedDict κ ν :=
  items.foldl (fun d item => d.update item.2 (fun _ => item.2) item.1) empty

/-- `d[key(a)] = add(d.get(key(a), init), a)` for each element in turn. -/
def tally (key : α → κ) (init : ν) (add : ν → α → ν) (l : List α) : OrderedDict κ ν :=
  l.foldl (fun d a => d.update init (add · a) (key a)) empty

omit [DecidableEq κ] in
@[ext] lemma ext_items {d d' : OrderedDict κ ν} (h : d.items = d'.items) : d = d' := by
  cases d
  cases d'
  simpa using h

lemma perm_of_lookup {d d' : OrderedDict κ ν} (h : ∀ k, d.items.lookup k = d'.items.lookup k) :
    d.items.Perm d'.items := by
  refine (List.perm_ext_iff_of_nodup d.nodup.of_map d'.nodup.of_map).2 fun item => ?_
  rw [mem_iff_lookup d.nodup, mem_iff_lookup d'.nodup, h]

/-- The items are the keys with the value found for each. -/
lemma map_some_items (d : OrderedDict κ ν) :
    d.items.map some
      = (d.items.map Prod.fst).map fun k => (d.items.lookup k).map fun v => (k, v) := by
  rw [List.map_map]
  refine List.map_congr_left fun item hitem => ?_
  simp [(mem_iff_lookup d.nodup item).1 hitem]

/-- A dictionary is the order of its keys and the value of each. -/
lemma ext_lookup {d d' : OrderedDict κ ν} (hkeys : d.items.map Prod.fst = d'.items.map Prod.fst)
    (h : ∀ k, d.items.lookup k = d'.items.lookup k) : d = d' := by
  refine ext_items (List.map_injective_iff.2 (Option.some_injective _) ?_)
  rw [map_some_items, map_some_items, hkeys]
  simp only [h]

lemma upsert_of_notMem (init : ν) (f : ν → ν) {key : κ} {items : List (κ × ν)}
    (h : key ∉ items.map Prod.fst) : upsert init f key items = items ++ [(key, f init)] := by
  induction items with
  | nil => rfl
  | cons item items ih =>
      rw [List.map_cons, List.mem_cons, not_or] at h
      rw [upsert, if_neg (Ne.symm h.1), ih h.2, List.cons_append]

lemma items_foldl_update (items : List (κ × ν)) (d : OrderedDict κ ν)
    (hn : (d.items.map Prod.fst ++ items.map Prod.fst).Nodup) :
    (items.foldl (fun d item => d.update item.2 (fun _ => item.2) item.1) d).items
      = d.items ++ items := by
  induction items generalizing d with
  | nil => simp
  | cons item items ih =>
      have hnew : item.1 ∉ d.items.map Prod.fst := by
        rw [List.map_cons, List.nodup_append] at hn
        exact fun hmem => hn.2.2 _ hmem _ List.mem_cons_self rfl
      have hitems : (d.update item.2 (fun _ => item.2) item.1).items = d.items ++ [item] :=
        upsert_of_notMem _ _ hnew
      rw [List.foldl_cons, ih _ (by simpa [hitems] using hn), hitems, List.append_assoc,
        List.singleton_append]

/-- Distinct keys keep the items as they are. -/
lemma items_ofItems {items : List (κ × ν)} (hn : (items.map Prod.fst).Nodup) :
    (ofItems items).items = items := by
  rw [ofItems, items_foldl_update items empty (by simpa [empty] using hn)]
  rfl

/-- A key has the value of its last item. -/
lemma lookup_ofItems (items : List (κ × ν)) (k : κ) :
    (ofItems items).items.lookup k = items.reverse.lookup k := by
  have hfold : ∀ d : OrderedDict κ ν,
      (items.foldl (fun d item => d.update item.2 (fun _ => item.2) item.1) d).items.lookup k
        = (items.reverse.lookup k).or (d.items.lookup k) := by
    induction items with
    | nil => simp
    | cons item items ih =>
        intro d
        have hstep : (d.update item.2 (fun _ => item.2) item.1).items.lookup k
            = if k = item.1 then some item.2 else d.items.lookup k := lookup_upsert _ _ _ _ _
        rw [List.foldl_cons, ih, hstep, List.reverse_cons, List.lookup_append, lookup_cons_ite,
          List.lookup_nil, Option.or_assoc]
        split_ifs <;> rfl
  rw [ofItems, hfold]
  exact Option.or_none

/-- The keys come in the order in which they appear first. -/
lemma keys_ofItems (items : List (κ × ν)) :
    (ofItems items).items.map Prod.fst = (items.map Prod.fst).eraseDups := by
  have hfold : ∀ d : OrderedDict κ ν,
      (items.foldl (fun d item => d.update item.2 (fun _ => item.2) item.1) d).items.map Prod.fst
        = d.items.map Prod.fst ++ ((items.map Prod.fst).removeAll (d.items.map Prod.fst)).eraseDups := by
    induction items with
    | nil => intro d; simp [List.removeAll]
    | cons item items ih =>
        intro d
        have hstep : (d.update item.2 (fun _ => item.2) item.1).items.map Prod.fst
            = if item.1 ∈ d.items.map Prod.fst then d.items.map Prod.fst
              else d.items.map Prod.fst ++ [item.1] := keys_upsert _ _ _ _
        rw [List.foldl_cons, ih, hstep, List.map_cons, List.cons_removeAll]
        by_cases hkey : item.1 ∈ d.items.map Prod.fst
        · rw [if_pos hkey, if_neg (by simpa using hkey)]
        · rw [if_neg hkey, if_pos (by simpa using hkey), List.append_assoc, List.singleton_append,
            List.eraseDups_cons, List.removeAll, List.removeAll, List.filter_filter]
          refine congrArg (fun ks => _ ++ _ :: List.eraseDups ks) (List.filter_congr fun k _ => ?_)
          simp [Bool.and_comm, beq_eq_decide, -List.mem_map]
  rw [ofItems, hfold]
  simp [empty, List.removeAll]

/-! ### Tallies -/

section Tally

variable (key : α → κ) (init : ν) (add : ν → α → ν)

lemma keys_foldl_update (l : List α) (d : OrderedDict κ ν) :
    (l.foldl (fun d a => d.update init (add · a) (key a)) d).items.map Prod.fst
      = (l.map key).foldl (fun ks k => if k ∈ ks then ks else ks ++ [k]) (d.items.map Prod.fst) := by
  induction l generalizing d with
  | nil => rfl
  | cons a l ih =>
      rw [List.foldl_cons, ih, List.map_cons, List.foldl_cons]
      exact congrArg (List.foldl _ · _) (keys_upsert init (add · a) (key a) d.items)

lemma lookup_foldl_update (l : List α) (d : OrderedDict κ ν) (k : κ) :
    (l.foldl (fun d a => d.update init (add · a) (key a)) d).items.lookup k
      = if k ∈ l.map key then
          some ((l.filter (key · = k)).foldl add ((d.items.lookup k).getD init))
        else d.items.lookup k := by
  induction l generalizing d with
  | nil => simp
  | cons a l ih =>
      have hstep := lookup_upsert init (add · a) (key a) k d.items
      rw [List.foldl_cons, ih]
      change (if k ∈ l.map key then some ((l.filter (key · = k)).foldl add
          (((upsert init (add · a) (key a) d.items).lookup k).getD init))
        else (upsert init (add · a) (key a) d.items).lookup k) = _
      rw [hstep]
      by_cases hk : k = key a
      · subst hk
        by_cases hlater : key a ∈ l.map key
        · simp [hlater]
        · have hnil : l.filter (key · = key a) = [] := by
            rw [List.filter_eq_nil_iff]
            intro b hb
            simpa using fun hkey : key b = key a => hlater (hkey ▸ List.mem_map_of_mem hb)
          simp [hlater, hnil]
      · have hne : key a ≠ k := Ne.symm hk
        simp [hk, hne]

/-- A key has the total of its own elements. -/
lemma lookup_tally (l : List α) (k : κ) :
    (tally key init add l).items.lookup k
      = if k ∈ l.map key then some ((l.filter (key · = k)).foldl add init) else none := by
  rw [tally, lookup_foldl_update]
  rfl

variable [RightCommutative add]

lemma lookup_tally_congr {l l' : List α} (hp : l.Perm l') (k : κ) :
    (tally key init add l).items.lookup k = (tally key init add l').items.lookup k := by
  have htotal : (l.filter (key · = k)).foldl add init = (l'.filter (key · = k)).foldl add init :=
    (hp.filter _).foldl_eq init
  rw [lookup_tally, lookup_tally, htotal]
  simp only [(hp.map key).mem_iff]

/-- The totals do not depend on the order of the elements. -/
theorem tally_perm {l l' : List α} (hp : l.Perm l') :
    (tally key init add l).items.Perm (tally key init add l').items :=
  perm_of_lookup (lookup_tally_congr key init add hp)

/-- Where the keys come in the same order, nothing depends on the order of the elements. -/
theorem tally_congr {l l' : List α} (hp : l.Perm l') (hkeys : l.map key = l'.map key) :
    tally key init add l = tally key init add l' := by
  refine ext_lookup ?_ (lookup_tally_congr key init add hp)
  rw [tally, tally, keys_foldl_update, keys_foldl_update, hkeys]

end Tally

end OrderedDict

end OrderedDict

end Python
