import Mathlib.Data.List.Pairwise
import PidtreeBcc.Filtering.Keys
import PidtreeBcc.Filtering.NetFilter

/-!
# GlitchFree — what the kernel sees while the network filters are reloaded

Between two writes of a reload the trie holds old nodes, new ones and leftovers.  When the networks of each
list are disjoint, an address is in at most one of the old networks and in at most one of the new ones, so
that at most one write and at most one deletion matter to it.
-/

namespace PidtreeBcc

open Support

/-! ## Lists of disjoint networks -/

/-- The trie holds what a list of filters stands for. -/
def HoldsFilters (e : Endian) (m : NetFilterMap) (filters : List FilterEntry) : Prop :=
  ∃ items, Items e filters items ∧ ∀ p, m.nodes.get? p = lastItem e items p

/-- The loader accepts every entry of the list. -/
def Accepted (e : Endian) (filters : List FilterEntry) : Prop := ∃ items, Items e filters items

/-- The netmask of the entry consists of ones followed by zeros. -/
def FilterEntry.HasPrefixMask (entry : FilterEntry) : Prop :=
  ∃ netmask, entry.networkMask = some netmask ∧ PrefixMask netmask

/-- No address is in two networks of the list. -/
def DisjointNetworks (filters : List FilterEntry) : Prop :=
  filters.Pairwise fun r s => ∀ a, ¬ (r.Matches a ∧ s.Matches a)

/-- At most one of the items has a path that is a prefix of the word. -/
def OneAlong (e : Endian) (items : List (CFilterKey × CFilterValue)) (w : List Bool) : Prop :=
  items.Pairwise fun x y => ¬ (x.1.path e <+: w ∧ y.1.path e <+: w)

section Entries

variable {e : Endian} {filters : List FilterEntry} {items : List (CFilterKey × CFilterValue)}

/-- The trie after a first load. -/
theorem holdsFilters_of_load {order : IterOrder CFilterKey} {capacity : Option Nat} {doDiff : Bool}
    (h : (loadFiltersIntoMap e order filters (LpmTrie.empty capacity) doDiff).error = none) :
    HoldsFilters e (loadFiltersIntoMap e order filters (LpmTrie.empty capacity) doDiff).final filters :=
  items_of_load h

/-- The key of an entry with a prefix mask stands for its network. -/
theorem standsFor_of_item {entry : FilterEntry} {item : CFilterKey × CFilterValue}
    (hitem : filterItem e entry = .ok item) (hmask : entry.HasPrefixMask) :
    item.1.Canonical e ∧ ∀ a, entry.Matches a ↔ item.1.path e <+: a.bits := by
  rcases bind_eq_ok.1 hitem with ⟨netmask, hnetmask, h⟩
  rcases bind_eq_ok.1 h with ⟨ip, hip, h⟩
  rcases bind_eq_ok.1 h with ⟨key, hkey, h⟩
  rcases bind_eq_ok.1 h with ⟨ports, _, h⟩
  rcases bind_eq_ok.1 h with ⟨ranges, _, h⟩
  cases h
  rw [subscript_eq_ok] at hnetmask hip
  rcases hmask with ⟨netmask', hnetmask', hmask⟩
  rw [hnetmask] at hnetmask'
  cases hnetmask'
  have hstands := (standsFor_iff hkey).2 hmask
  refine ⟨hstands.masked, ?_⟩
  intro a
  have hlen : (key.path e).length = key.prefixlen := by
    simpa [CFilterKey.path] using hstands.masked.1
  have hcovers : key.Covers e a ↔ key.path e <+: a.bits := by
    rw [List.prefix_iff_eq_take, hlen, CFilterKey.Covers]
    exact eq_comm
  rw [← hcovers, ← hstands.selected a]
  constructor
  · rintro ⟨s, network, t, mask, hs, hnetwork, ht, hmask, hEq⟩
    rw [hip] at hs
    rw [hnetmask] at ht
    cases hs
    cases ht
    exact ⟨mask, network, hmask, hnetwork, hEq⟩
  · rintro ⟨mask, network, hmask, hnetwork, hEq⟩
    exact ⟨ip, network, netmask, mask, hip, hnetwork, hnetmask, hmask, hEq⟩

theorem Items.canonical (h : Items e filters items)
    (hmasks : ∀ entry ∈ filters, entry.HasPrefixMask) : ∀ item ∈ items, item.1.Canonical e := by
  induction h with
  | nil => simp
  | @cons entry item filters items hitem _ ih =>
      intro x hx
      rcases List.mem_cons.1 hx with rfl | hx
      · exact (standsFor_of_item hitem (hmasks entry (by simp))).1
      · exact ih (fun r hr => hmasks r (by simp [hr])) x hx

/-- An address is in at most one of the networks. -/
theorem Items.oneAlong (h : Items e filters items)
    (hmasks : ∀ entry ∈ filters, entry.HasPrefixMask) (hdisjoint : DisjointNetworks filters)
    (a : Ipv4) : OneAlong e items a.bits := by
  induction h with
  | nil => exact List.Pairwise.nil
  | @cons entry item filters items hitem hrest ih =>
      rw [DisjointNetworks, List.pairwise_cons] at hdisjoint
      refine List.Pairwise.cons ?_ (ih (fun r hr => hmasks r (by simp [hr])) hdisjoint.2)
      rintro other hother ⟨hpath, hpath'⟩
      rcases List.mem_iff_getElem?.1 hother with ⟨i, hi⟩
      rcases Items.entry_of_item hrest hi with ⟨entry', hentry', hitem'⟩
      have hmem := List.mem_of_getElem? hentry'
      refine hdisjoint.1 entry' hmem a ⟨?_, ?_⟩
      · exact ((standsFor_of_item hitem (hmasks entry (by simp))).2 a).2 hpath
      · exact ((standsFor_of_item hitem' (hmasks entry' (by simp [hmem]))).2 a).2 hpath'

end Entries

/-! ## The states of a load -/

/-- The items laid over a trie. -/
def Written (e : Endian) (m : NetFilterMap) (items : List (CFilterKey × CFilterValue))
    (s : NetFilterMap) : Prop :=
  ∀ p, s.nodes.get? p = (lastItem e items p).or (m.nodes.get? p)

/-- A trie without the nodes at the paths `gone`. -/
def Deleted (m : NetFilterMap) (gone : List (List Bool)) (s : NetFilterMap) : Prop :=
  ∀ p, s.nodes.get? p = if p ∈ gone then none else m.nodes.get? p

section States

variable {e : Endian}

theorem Written.cons {m m' s : NetFilterMap} {key : CFilterKey} {value : CFilterValue}
    {items : List (CFilterKey × CFilterValue)} (h : Written e m' items s)
    (hinsert : m.insert? (key.path e) key value = some m') : Written e m ((key, value) :: items) s := by
  intro p
  rw [h p, lastItem_cons, LpmTrie.insert?_eq_some hinsert, Dict.get?_set, Option.or_assoc]
  by_cases hp : key.path e = p <;> simp [hp]

/-- What the first loop writes: a first part of the items, one after the other. -/
theorem storeEntries_states {filters : List FilterEntry} {items : List (CFilterKey × CFilterValue)}
    (hitems : Items e filters items) : ∀ (m : NetFilterMap) (leftovers : List CFilterKey),
      ∃ stored, stored <+: items ∧
        Written e m stored (storeEntries e filters m leftovers).1.final ∧
        (∀ s ∈ (storeEntries e filters m leftovers).1.states,
          ∃ done, done <+: stored ∧ Written e m done s) ∧
        ((storeEntries e filters m leftovers).1.error = none → stored = items ∧
          (storeEntries e filters m leftovers).2 =
            leftovers.filter (· ∉ items.map Prod.fst)) := by
  induction hitems with
  | nil =>
      intro m leftovers
      refine ⟨[], List.prefix_refl _, ?_, ?_, ?_⟩
      · intro p
        simp [storeEntries, lastItem]
      · simp [storeEntries]
      · simp [storeEntries]
  | @cons entry item filters items hitem _ ih =>
      intro m leftovers
      rcases item with ⟨key, value⟩
      cases hinsert : m.insert? (key.path e) key value with
      | none =>
          refine ⟨[], List.nil_prefix, ?_, ?_, ?_⟩
          · intro p
            simp [storeEntries, hitem, hinsert, lastItem]
          · simp [storeEntries, hitem, hinsert]
          · simp [storeEntries, hitem, hinsert]
      | some m' =>
          rcases ih m' (leftovers.filter (· ≠ key)) with
            ⟨stored, hstored, hfinal, hstates, hall⟩
          simp only [storeEntries, hitem, hinsert]
          refine ⟨(key, value) :: stored, List.cons_prefix_cons.2 ⟨rfl, hstored⟩,
            hfinal.cons hinsert, ?_, ?_⟩
          · intro s hs
            rcases List.mem_cons.1 hs with rfl | hs
            · refine ⟨[(key, value)], List.cons_prefix_cons.2 ⟨rfl, List.nil_prefix⟩, ?_⟩
              refine Written.cons ?_ hinsert
              intro p
              simp [lastItem]
            · rcases hstates s hs with ⟨done, hdone, hs⟩
              exact ⟨(key, value) :: done, List.cons_prefix_cons.2 ⟨rfl, hdone⟩, hs.cons hinsert⟩
          · intro herror
            rcases hall herror with ⟨rfl, hleft⟩
            refine ⟨rfl, ?_⟩
            rw [hleft, List.filter_filter]
            refine List.filter_congr ?_
            intro k _
            by_cases hk : k = key <;> simp [hk]

/-- What the second loop deletes: a first part of the keys, one after the other. -/
theorem deleteKeys_states : ∀ (ks : List CFilterKey) (m : NetFilterMap),
    ∃ gone, gone <+: ks.map (CFilterKey.path e) ∧ Deleted m gone (deleteKeys e ks m).final ∧
      ∀ s ∈ (deleteKeys e ks m).states, ∃ part, part <+: gone ∧ Deleted m part s
  | [], m => ⟨[], List.prefix_refl _, fun p => by simp [deleteKeys], by simp [deleteKeys]⟩
  | k :: ks, m => by
      by_cases hmem : k.path e ∈ m.nodes.keys
      · have hdelete := LpmTrie.delete?_of_mem hmem
        have hcons : ∀ {gone : List (List Bool)} {s : NetFilterMap},
            Deleted { m with nodes := m.nodes.erase (k.path e) } gone s →
              Deleted m (k.path e :: gone) s := by
          intro gone s h p
          rw [h p, Dict.get?_erase]
          by_cases hp : k.path e = p
          · simp [hp]
          · simp [hp, Ne.symm hp]
        rcases deleteKeys_states ks { m with nodes := m.nodes.erase (k.path e) } with
          ⟨gone, hgone, hfinal, hstates⟩
        simp only [deleteKeys, hdelete]
        refine ⟨k.path e :: gone, List.cons_prefix_cons.2 ⟨rfl, hgone⟩, hcons hfinal, ?_⟩
        intro s hs
        rcases List.mem_cons.1 hs with rfl | hs
        · refine ⟨[k.path e], List.cons_prefix_cons.2 ⟨rfl, List.nil_prefix⟩, hcons ?_⟩
          intro p
          simp
        · rcases hstates s hs with ⟨part, hpart, hs⟩
          exact ⟨k.path e :: part, List.cons_prefix_cons.2 ⟨rfl, hpart⟩, hcons hs⟩
      · have hdelete : m.delete? (k.path e) = none := by simp [LpmTrie.delete?, hmem]
        refine ⟨[], List.nil_prefix, ?_, ?_⟩
        · intro p
          simp [deleteKeys, hdelete]
        · simp [deleteKeys, hdelete]

/-- The same answer on every port of an address. -/
def SameVerdicts (e : Endian) (s t : NetFilterMap) (a : Ipv4) : Prop :=
  ∀ port, isAddrPortFiltered e s (unpackL e a) port = isAddrPortFiltered e t (unpackL e a) port

theorem SameVerdicts.trans {s t u : NetFilterMap} {a : Ipv4} (h : SameVerdicts e s t a)
    (h' : SameVerdicts e t u a) : SameVerdicts e s u a :=
  fun port => (h port).trans (h' port)

theorem sameVerdicts_of_lookup {s t : NetFilterMap} {a : Ipv4}
    (h : s.lookup a.bits = t.lookup a.bits) : SameVerdicts e s t a := by
  intro port
  simp [isAddrPortFiltered, h]

/-- Only the nodes along the address matter. -/
theorem sameVerdicts_of_along {s t : NetFilterMap} {a : Ipv4}
    (h : ∀ p, p <+: a.bits → s.nodes.get? p = t.nodes.get? p) : SameVerdicts e s t a := by
  refine sameVerdicts_of_lookup (longestMatch_congr ?_)
  intro p hp
  rw [LpmTrie.valueAt, LpmTrie.valueAt, h p hp]

/-- Of the items stored so far, either none or all those along the address count. -/
theorem lastItem_of_done {done stored : List (CFilterKey × CFilterValue)} {w : List Bool}
    (hone : OneAlong e stored w) (hdone : done <+: stored) :
    (∀ p, p <+: w → lastItem e done p = none) ∨
      (∀ p, p <+: w → lastItem e done p = lastItem e stored p) := by
  rcases hdone with ⟨rest, rfl⟩
  by_cases hsome : ∃ item ∈ done, item.1.path e <+: w
  · right
    rcases hsome with ⟨item, hitem, halong⟩
    intro p hp
    have hrest : lastItem e rest p = none := by
      rw [lastItem_eq_none_iff]
      rintro other hother rfl
      exact (List.pairwise_append.1 hone).2.2 item hitem other hother ⟨halong, hp⟩
    rw [lastItem_append, hrest, Option.none_or]
  · left
    intro p hp
    rw [lastItem_eq_none_iff]
    rintro item hitem rfl
    exact hsome ⟨item, hitem, hp⟩

/-- While the items are written, an address is answered as before or as after the last write. -/
theorem sameVerdicts_of_written {m s f : NetFilterMap} {a : Ipv4}
    {done stored : List (CFilterKey × CFilterValue)} (hone : OneAlong e stored a.bits)
    (hdone : done <+: stored) (hs : Written e m done s) (hf : Written e m stored f) :
    SameVerdicts e s m a ∨ SameVerdicts e s f a := by
  rcases lastItem_of_done hone hdone with hnone | hall
  · left
    refine sameVerdicts_of_along ?_
    intro p hp
    rw [hs p, hnone p hp, Option.none_or]
  · right
    refine sameVerdicts_of_along ?_
    intro p hp
    rw [hs p, hf p, hall p hp]

/-- After the last write an address is answered as before, or by the items alone. -/
theorem lookup_of_written {m f : NetFilterMap} {items : List (CFilterKey × CFilterValue)}
    (hf : Written e m items f) (w : List Bool) :
    f.lookup w = m.lookup w ∨
      f.lookup w = longestMatch (fun p => (lastItem e items p).map Prod.snd) w := by
  have hvalue : f.valueAt =
      fun p => ((lastItem e items p).map Prod.snd).or (m.valueAt p) := by
    funext p
    rw [LpmTrie.valueAt, hf p, LpmTrie.valueAt, Option.map_or]
  unfold LpmTrie.lookup
  rw [hvalue]
  exact longestMatch_or _ _ w

/-- While keys are deleted of which at most one lies along the address, it is answered as before the
first deletion or as after the last one. -/
theorem sameVerdicts_of_deleted {f s g : NetFilterMap} {a : Ipv4} {part gone : List (List Bool)}
    (hone : ∀ p ∈ gone, ∀ q ∈ gone, p <+: a.bits → q <+: a.bits → p = q) (hpart : part <+: gone)
    (hs : Deleted f part s) (hg : Deleted f gone g) :
    SameVerdicts e s f a ∨ SameVerdicts e s g a := by
  by_cases hsome : ∃ q ∈ part, q <+: a.bits
  · right
    rcases hsome with ⟨q, hq, hqa⟩
    refine sameVerdicts_of_along ?_
    intro p hp
    rw [hs p, hg p]
    by_cases hgone : p ∈ gone
    · rw [hone p hgone q (hpart.subset hq) hp hqa, if_pos hq, if_pos (hpart.subset hq)]
    · rw [if_neg hgone, if_neg (fun hmem => hgone (hpart.subset hmem))]
  · left
    refine sameVerdicts_of_along ?_
    intro p hp
    rw [hs p, if_neg (fun hmem => hsome ⟨p, hmem, hp⟩)]

end States

/-! ## The reload -/

section Reload

variable {e : Endian} {old new : List FilterEntry} {oldItems items : List (CFilterKey × CFilterValue)}
  {m : NetFilterMap}

/-- The old trie has at most one node along an address. -/
theorem eq_of_nodes_along {w : List Bool} (hget : ∀ p, m.nodes.get? p = lastItem e oldItems p)
    (hone : OneAlong e oldItems w) {p q : List Bool} (hp : m.nodes.get? p ≠ none)
    (hq : m.nodes.get? q ≠ none) (hpw : p <+: w) (hqw : q <+: w) : p = q := by
  rw [hget, Option.ne_none_iff_exists'] at hp hq
  rcases hp with ⟨x, hlastx⟩
  rcases hq with ⟨y, hlasty⟩
  rcases mem_of_lastItem hlastx with ⟨hx, rfl⟩
  rcases mem_of_lastItem hlasty with ⟨hy, rfl⟩
  by_contra hne
  have hxy : x ≠ y := by
    rintro rfl
    exact hne rfl
  have : Std.Symm fun x y : CFilterKey × CFilterValue =>
      ¬ (x.1.path e <+: w ∧ y.1.path e <+: w) := ⟨fun _ _ h h' => h ⟨h'.2, h'.1⟩⟩
  exact hone.forall hx hy hxy ⟨hpw, hqw⟩

/-- The node of a leftover is there, and no new item lies at its path. -/
theorem leftover_node (hget : ∀ p, m.nodes.get? p = lastItem e oldItems p)
    (hold : ∀ item ∈ oldItems, item.1.Canonical e) (hnew : ∀ item ∈ items, item.1.Canonical e)
    {k : CFilterKey} (hk : Leftover m items k) :
    m.nodes.get? (k.path e) ≠ none ∧ lastItem e items (k.path e) = none := by
  rcases mem_storedKeys_iff.1 hk.1 with ⟨p, v, hp⟩
  have hlast := hp
  rw [hget] at hlast
  rcases mem_of_lastItem hlast with ⟨hmem, rfl⟩
  refine ⟨by simp [hp], ?_⟩
  rw [lastItem_eq_none_iff]
  intro item hitem hpath
  have hEq : item.1 = k := (hnew item hitem).eq_of_path (hold _ hmem) hpath
  exact hk.2 (List.mem_map.2 ⟨item, hitem, hEq⟩)

/-- Once the leftovers are gone, an address along which one of them lay is answered by the new items. -/
theorem lookup_of_deleted {f g : NetFilterMap} {gone : List (List Bool)} {w q : List Bool}
    (hgone : ∀ p ∈ gone, m.nodes.get? p ≠ none ∧ lastItem e items p = none)
    (hone : ∀ p p', m.nodes.get? p ≠ none → m.nodes.get? p' ≠ none → p <+: w → p' <+: w → p = p')
    (hf : Written e m items f) (hg : Deleted f gone g) (hq : q ∈ gone) (hqw : q <+: w) :
    g.lookup w = longestMatch (fun p => (lastItem e items p).map Prod.snd) w := by
  refine longestMatch_congr ?_
  intro p hp
  rw [LpmTrie.valueAt, hg p]
  by_cases hmem : p ∈ gone
  · rw [if_pos hmem, (hgone p hmem).2]
  · rw [if_neg hmem, hf p]
    have hnone : m.nodes.get? p = none := by
      by_contra hne
      exact hmem (hone p q hne (hgone q hq).1 hp hqw ▸ hq)
    rw [hnone, Option.or_none]

/-- Between the two loops an address is answered as before both or as after both. -/
theorem sameVerdicts_of_between {f g : NetFilterMap} {gone : List (List Bool)} {a : Ipv4}
    (hgone : ∀ p ∈ gone, m.nodes.get? p ≠ none ∧ lastItem e items p = none)
    (hone : ∀ p q, m.nodes.get? p ≠ none → m.nodes.get? q ≠ none → p <+: a.bits → q <+: a.bits →
      p = q) (hf : Written e m items f) (hg : Deleted f gone g) :
    SameVerdicts e f m a ∨ SameVerdicts e f g a := by
  by_cases hsome : ∃ q ∈ gone, q <+: a.bits
  · rcases hsome with ⟨q, hq, hqa⟩
    rcases lookup_of_written hf a.bits with hlookup | hlookup
    · exact Or.inl (sameVerdicts_of_lookup hlookup)
    · exact Or.inr
        (sameVerdicts_of_lookup (hlookup.trans (lookup_of_deleted hgone hone hf hg hq hqa).symm))
  · right
    refine sameVerdicts_of_along ?_
    intro p hp
    rw [hg p, if_neg (fun hmem => hsome ⟨p, hmem, hp⟩)]

/-- Every state of the reload answers an address as the trie did before it, or as it will after it. -/
theorem sameVerdicts_of_reload (order : IterOrder CFilterKey) (hitems : Items e new items)
    (hget : ∀ p, m.nodes.get? p = lastItem e oldItems p)
    (hold : ∀ item ∈ oldItems, item.1.Canonical e) (hnew : ∀ item ∈ items, item.1.Canonical e)
    {a : Ipv4} (holdOne : OneAlong e oldItems a.bits) (hnewOne : OneAlong e items a.bits) :
    ∀ s ∈ (loadFiltersIntoMap e order new m true).states,
      SameVerdicts e s m a ∨ SameVerdicts e s (loadFiltersIntoMap e order new m true).final a := by
  rcases storeEntries_states hitems m m.storedKeys.dedup with
    ⟨stored, hstored, hwritten, hstates, hall⟩
  have hstoredOne : OneAlong e stored a.bits := hnewOne.sublist hstored.sublist
  simp only [loadFiltersIntoMap, if_true]
  cases herror : (storeEntries e new m m.storedKeys.dedup).1.error with
  | some err =>
      -- The trie was full: there is no second loop.
      intro s hs
      rcases hstates s hs with ⟨done, hdone, hs⟩
      exact sameVerdicts_of_written hstoredOne hdone hs hwritten
  | none =>
      rcases hall herror with ⟨rfl, hleftovers⟩
      rcases deleteKeys_states (order.run (storeEntries e new m m.storedKeys.dedup).2)
        (storeEntries e new m m.storedKeys.dedup).1.final with ⟨gone, hkeys, hdeleted, hparts⟩
      have hgone : ∀ p ∈ gone, m.nodes.get? p ≠ none ∧ lastItem e stored p = none := by
        intro p hp
        rcases List.mem_map.1 (hkeys.subset hp) with ⟨k, hk, rfl⟩
        refine leftover_node hget hold hnew ?_
        rw [IterOrder.mem_run, hleftovers] at hk
        simpa [Leftover] using hk
      have hone : ∀ p q, m.nodes.get? p ≠ none → m.nodes.get? q ≠ none → p <+: a.bits →
          q <+: a.bits → p = q := fun p q hp hq => eq_of_nodes_along hget holdOne hp hq
      have hgoneOne : ∀ p ∈ gone, ∀ q ∈ gone, p <+: a.bits → q <+: a.bits → p = q :=
        fun p hp q hq => hone p q (hgone p hp).1 (hgone q hq).1
      -- Between the loops the address is answered as before, or as it will be after them.
      have hbetween := sameVerdicts_of_between hgone hone hwritten hdeleted
      intro s hs
      rcases List.mem_append.1 hs with hs | hs
      · rcases hstates s hs with ⟨done, hdone, hs⟩
        rcases sameVerdicts_of_written hstoredOne hdone hs hwritten with hsame | hsame
        · exact Or.inl hsame
        · exact hbetween.imp hsame.trans hsame.trans
      · rcases hparts s hs with ⟨part, hpart, hs⟩
        rcases sameVerdicts_of_deleted hgoneOne hpart hs hdeleted with hsame | hsame
        · exact hbetween.imp hsame.trans hsame.trans
        · exact Or.inr hsame

end Reload

/-- A reload of disjoint networks is glitch free: whenever the kernel looks an address up in between, it
gets the verdict from before the reload or the one from after it.  A reload that a full trie ends is
covered as well. -/
theorem reload_glitch_free {e : Endian} {order : IterOrder CFilterKey} {old new : List FilterEntry}
    {m : NetFilterMap} (hold : HoldsFilters e m old) (hnew : Accepted e new)
    (hmasks : ∀ entry ∈ old ++ new, entry.HasPrefixMask) (holdDisjoint : DisjointNetworks old)
    (hnewDisjoint : DisjointNetworks new) :
    ∀ s ∈ (loadFiltersIntoMap e order new m true).states, ∀ addr port,
      isAddrPortFiltered e s addr port = isAddrPortFiltered e m addr port ∨
        isAddrPortFiltered e s addr port =
          isAddrPortFiltered e (loadFiltersIntoMap e order new m true).final addr port := by
  rcases hold with ⟨oldItems, holdItems, hget⟩
  rcases hnew with ⟨items, hitems⟩
  have holdMasks : ∀ entry ∈ old, entry.HasPrefixMask :=
    fun entry hentry => hmasks entry (List.mem_append_left _ hentry)
  have hnewMasks : ∀ entry ∈ new, entry.HasPrefixMask :=
    fun entry hentry => hmasks entry (List.mem_append_right _ hentry)
  intro s hs addr port
  have hsame := sameVerdicts_of_reload order hitems hget (holdItems.canonical holdMasks)
    (hitems.canonical hnewMasks) (holdItems.oneAlong holdMasks holdDisjoint (packL e addr))
    (hitems.oneAlong hnewMasks hnewDisjoint (packL e addr)) s hs
  rcases hsame with hsame | hsame
  · left
    simpa using hsame port
  · right
    simpa using hsame port

/-- From the network `10.0.0.0/8` to `10.1.0.0/16` in it, which a diff writes before it deletes the
wider one. -/
theorem nested_reload_glitch_free :
    (loadFiltersIntoMap .little .listed [Example.tenOneButHttp]
        (loadFiltersIntoMap .little .listed [Example.tenAll] (LpmTrie.empty (some 512)) false).final
        true).states.length = 2 ∧
      ∀ s ∈ (loadFiltersIntoMap .little .listed [Example.tenOneButHttp]
          (loadFiltersIntoMap .little .listed [Example.tenAll] (LpmTrie.empty (some 512)) false).final
          true).states, ∀ addr port,
        isAddrPortFiltered .little s addr port =
            isAddrPortFiltered .little (loadFiltersIntoMap .little .listed [Example.tenAll]
              (LpmTrie.empty (some 512)) false).final addr port ∨
          isAddrPortFiltered .little s addr port =
            isAddrPortFiltered .little (loadFiltersIntoMap .little .listed [Example.tenOneButHttp]
              (loadFiltersIntoMap .little .listed [Example.tenAll] (LpmTrie.empty (some 512))
                false).final true).final addr port := by
  refine ⟨by decide +kernel, reload_glitch_free (holdsFilters_of_load (by decide +kernel))
    ⟨_, .cons rfl .nil⟩ ?_ (List.pairwise_singleton _ _) (List.pairwise_singleton _ _)⟩
  intro entry hentry
  rcases List.mem_pair.1 hentry with rfl | rfl
  · exact ⟨_, rfl, ⟨255, 0, 0, 0⟩, 8, by decide, by decide⟩
  · exact ⟨_, rfl, ⟨255, 255, 0, 0⟩, 16, by decide, by decide⟩

end PidtreeBcc
