import PidtreeBcc.Probes.HotSwap

/-!
# PortFilters — the port filter of `net_listen` beside the port array

`net_listen` parses `includeports` and `excludeports` a second time, for its snapshots.  It takes no range
in `includeports` and no negative number in `excludeports`, and it compares the numbers themselves, while
the array is written modulo 2^32.
-/

namespace PidtreeBcc

/-! ## Numbers as strings -/

theorem toList_toString_natCast (n : Nat) : (toString (n : Int)).toList = Nat.toDigits 10 n := by
  simp [Int.toString_eq_repr, Int.repr, Nat.repr]

theorem toList_toString_negSucc (n : Nat) :
    (toString (Int.negSucc n)).toList = '-' :: Nat.toDigits 10 (n + 1) := by
  simp [Int.toString_eq_repr, Int.repr, Nat.repr]

theorem not_dash_mem_toDigits (n : Nat) : '-' ∉ Nat.toDigits 10 n := by
  intro h
  have hdigit := Nat.isDigit_of_mem_toDigits (by decide) (by decide) h
  simp at hdigit

namespace Probes

open Support

/-! ## One element, read twice -/

section Spec

variable {spec : PortSpec} {ports : List Int}

/-- `int()` takes an element of `includeports` that the loader takes, unless it is a range. -/
theorem toInt_iff (h : spec.globalPorts = .ok ports) {n : Int} :
    spec.toInt = .ok n ↔ ports = [n] ∧ ∀ s, spec = .str s → '-' ∉ s.toList := by
  cases spec with
  | int k =>
      cases h
      simp [PortSpec.toInt]
  | str s =>
      by_cases hdash : '-' ∈ s.toList
      · have hrange : ∃ b, splitRange s.toList = .ok b := by
          simp only [PortSpec.globalPorts, if_pos hdash, portRangeMapper] at h
          rcases map_eq_ok.1 h with ⟨b, hb, _⟩
          exact ⟨b, hb⟩
        rcases hrange with ⟨b, hb⟩
        refine iff_of_false (pyInt_of_range hdash hb n) ?_
        rintro ⟨_, hall⟩
        exact hall s rfl hdash
      · simp only [PortSpec.globalPorts, if_neg hdash] at h
        rcases map_eq_ok.1 h with ⟨k, hk, rfl⟩
        simp [PortSpec.toInt, hk, hdash]

theorem number_of_globalPorts (h : spec.globalPorts = .ok ports)
    (hrange : ∀ s, spec = .str s → '-' ∉ s.toList) : ∃ n, ports = [n] := by
  cases spec with
  | int k =>
      cases h
      exact ⟨k, rfl⟩
  | str s =>
      simp only [PortSpec.globalPorts, if_neg (hrange s rfl)] at h
      rcases map_eq_ok.1 h with ⟨k, _, rfl⟩
      exact ⟨k, rfl⟩

/-- The decoder of `excludeports` takes an element that the loader takes, unless it is negative. -/
theorem excludedPorts_iff (h : spec.globalPorts = .ok ports) {ports' : List Int} :
    excludedPorts (pyStr spec) = .ok ports' ↔ ports = ports' ∧ ∀ n, spec = .int n → 0 ≤ n := by
  cases spec with
  | str s =>
      have hsame : excludedPorts (pyStr (.str s)) = PortSpec.globalPorts (.str s) := rfl
      rw [hsame, h]
      simp
  | int k =>
      cases h
      cases k with
      | ofNat n =>
          have hlist := toList_toString_natCast n
          simp only [excludedPorts, pyStr, Int.ofNat_eq_natCast, hlist, not_dash_mem_toDigits,
            if_false, pyInt_toDigits]
          simp [Except.map]
      | negSucc n =>
          have hsplit : ('-' :: Nat.toDigits 10 (n + 1)).splitOn '-' = [[], Nat.toDigits 10 (n + 1)] := by
            have happend : ([] ++ '-' :: Nat.toDigits 10 (n + 1)).splitOn '-' =
                [] :: (Nat.toDigits 10 (n + 1)).splitOn '-' :=
              List.splitOn_append_cons_self_of_not_mem (by simp) (Nat.toDigits 10 (n + 1))
            rw [List.splitOn_eq_singleton (not_dash_mem_toDigits (n + 1))] at happend
            exact happend
          have herror : excludedPorts (pyStr (.int (Int.negSucc n))) =
              .error (.builtin .ValueError) := by
            simp only [excludedPorts, pyStr, toList_toString_negSucc, List.mem_cons_self, if_true,
              portRangeMapper, splitRange, hsplit]
            simp [pyInt, strip, signed?, digits?, Except.map]
          rw [herror]
          simp

end Spec

/-! ## The two filters -/

/-- The condition under which `net_listen` takes the list that the loader takes: no range if these are
the ports to include, and no negative number if they are the ports to exclude. -/
def ReadAlike : PortFilterMode → List PortSpec → Prop
  | .include, specs => ∀ s, .str s ∈ specs → '-' ∉ s.toList
  | _, specs => ∀ n, .int n ∈ specs → 0 ≤ n

/-- A listed number that names a port, modulo 2^32, has the port listed. -/
def OwnNumbers (specs : List PortSpec) : Prop :=
  ∀ port : BitVec 16, port ≠ 0 →
    (∃ n ∈ listedPorts specs, PortFilterMap.index n = .ok port) →
      (port.toNat : Int) ∈ listedPorts specs

/-- Numbers from 0 to 65535 name only their own port. -/
theorem ownNumbers_of_ports {specs : List PortSpec}
    (h : ∀ n ∈ listedPorts specs, 0 ≤ n ∧ n ≤ 65535) : OwnNumbers specs := by
  rintro port _ ⟨n, hn, hindex⟩
  rcases h n hn with ⟨h₀, h₁⟩
  rw [PortFilterMap.index_of_port h₀ h₁] at hindex
  cases hindex
  rw [PortFilterMap.toNat_of_port h₀ h₁]
  exact hn

/-- What `net_listen` makes of the list that the base class chose. -/
def userlandPorts : PortFilterMode → List PortSpec → Except PyErr PortFilter
  | .include, specs => (specs.mapM PortSpec.toInt).map PortFilter.only
  | _, specs => ((specs.map pyStr).mapM excludedPorts).map fun ports => .allBut ports.flatten

def PortFilter.ofMode : PortFilterMode → List Int → PortFilter
  | .include, ports => .only ports
  | _, ports => .allBut ports

section Lists

variable {specs : List PortSpec} {ports : List (List Int)}

theorem mapM_toInt_iff (h : specs.mapM PortSpec.globalPorts = .ok ports) {ns : List Int} :
    specs.mapM PortSpec.toInt = .ok ns ↔
      ns = ports.flatten ∧ ∀ s, .str s ∈ specs → '-' ∉ s.toList := by
  have hall := mapM_eq_ok.1 h
  clear h
  induction hall generalizing ns with
  | nil =>
      rw [mapM_eq_ok]
      cases ns with
      | nil => simp
      | cons n ns => simp
  | @cons spec nums specs ports hspec _ ih =>
      rw [List.mapM_cons, bind_eq_ok]
      constructor
      · rintro ⟨n, hn, hrest⟩
        rcases bind_eq_ok.1 hrest with ⟨ns', hns', hcons⟩
        cases hcons
        rcases (toInt_iff hspec).1 hn with ⟨rfl, hhead⟩
        rcases ih.1 hns' with ⟨rfl, htail⟩
        refine ⟨rfl, ?_⟩
        intro s hs
        rcases List.mem_cons.1 hs with hs | hs
        · exact hhead s hs.symm
        · exact htail s hs
      · rintro ⟨rfl, hranges⟩
        have hhead : ∀ s, spec = .str s → '-' ∉ s.toList := by
          rintro s rfl
          exact hranges s (by simp)
        rcases number_of_globalPorts hspec hhead with ⟨n, rfl⟩
        refine ⟨n, (toInt_iff hspec).2 ⟨rfl, hhead⟩, ?_⟩
        refine bind_eq_ok.2 ⟨ports.flatten, ih.2 ⟨rfl, ?_⟩, rfl⟩
        exact fun s hs => hranges s (List.mem_cons_of_mem _ hs)

theorem mapM_excludedPorts_iff (h : specs.mapM PortSpec.globalPorts = .ok ports)
    {ports' : List (List Int)} :
    (specs.map pyStr).mapM excludedPorts = .ok ports' ↔
      ports' = ports ∧ ∀ n, .int n ∈ specs → 0 ≤ n := by
  have hall := mapM_eq_ok.1 h
  clear h
  induction hall generalizing ports' with
  | nil =>
      rw [mapM_eq_ok]
      cases ports' with
      | nil => simp
      | cons nums rest => simp
  | @cons spec nums specs ports hspec _ ih =>
      rw [List.map_cons, List.mapM_cons, bind_eq_ok]
      constructor
      · rintro ⟨nums', hnums', hrest⟩
        rcases bind_eq_ok.1 hrest with ⟨rest, htails, hcons⟩
        cases hcons
        rcases (excludedPorts_iff hspec).1 hnums' with ⟨rfl, hhead⟩
        rcases ih.1 htails with ⟨rfl, htail⟩
        refine ⟨rfl, ?_⟩
        intro n hn
        rcases List.mem_cons.1 hn with hn | hn
        · exact hhead n hn.symm
        · exact htail n hn
      · rintro ⟨rfl, hsigns⟩
        refine ⟨nums, (excludedPorts_iff hspec).2 ⟨rfl, ?_⟩, ?_⟩
        · rintro n rfl
          exact hsigns n (by simp)
        · refine bind_eq_ok.2 ⟨ports, ih.2 ⟨rfl, ?_⟩, rfl⟩
          exact fun n hn => hsigns n (List.mem_cons_of_mem _ hn)

/-- `net_listen` takes the list just when the two readings are alike, and then it has the numbers of the
loader. -/
theorem userlandPorts_eq_ok {mode : PortFilterMode} (h : specs.mapM PortSpec.globalPorts = .ok ports)
    {filter : PortFilter} :
    userlandPorts mode specs = .ok filter ↔
      ReadAlike mode specs ∧ filter = .ofMode mode ports.flatten := by
  have hexclude : ((specs.map pyStr).mapM excludedPorts).map
      (fun ports => PortFilter.allBut ports.flatten) = .ok filter ↔
        (∀ n, .int n ∈ specs → 0 ≤ n) ∧ filter = .allBut ports.flatten := by
    rw [map_eq_ok]
    constructor
    · rintro ⟨ports', hports', rfl⟩
      rcases (mapM_excludedPorts_iff h).1 hports' with ⟨rfl, hsigns⟩
      exact ⟨hsigns, rfl⟩
    · rintro ⟨hsigns, rfl⟩
      exact ⟨ports, (mapM_excludedPorts_iff h).2 ⟨rfl, hsigns⟩, rfl⟩
  cases mode with
  | all => exact hexclude
  | exclude => exact hexclude
  | «include» =>
      unfold userlandPorts
      rw [map_eq_ok]
      constructor
      · rintro ⟨ns, hns, rfl⟩
        rcases (mapM_toInt_iff h).1 hns with ⟨rfl, hranges⟩
        exact ⟨hranges, rfl⟩
      · rintro ⟨hranges, rfl⟩
        exact ⟨ports.flatten, (mapM_toInt_iff h).2 ⟨rfl, hranges⟩, rfl⟩

end Lists

/-- The filter in userland lets through the ports that the array does not filter. -/
def PassesUnfiltered (filter : PortFilter) (m : PortFilterMap) : Prop :=
  ∀ port : BitVec 16, port ≠ 0 →
    (filter.passes port.toNat = true ↔ isPortGloballyFiltered m port = false)

section Agreement

variable {order : IterOrder Int} {specs : List PortSpec} {mode : PortFilterMode}

/-- After a first load the two filters agree just when every named port is listed itself. -/
theorem passesUnfiltered_iff
    (hload : (loadPortFiltersIntoMap order specs mode PortFilterMap.zeros false).error = none) :
    PassesUnfiltered (.ofMode mode (listedPorts specs))
        (loadPortFiltersIntoMap order specs mode PortFilterMap.zeros false).final ↔
      OwnNumbers specs := by
  rcases loadPortFilters_error_iff.1 hload with ⟨hmode, ports, hports, _⟩
  have hlisted : listedPorts specs = ports.flatten := by
    simp [listedPorts, hports]
  have hzero := loadPortFilters_final hmode hports hload 0
  simp only [if_true] at hzero
  unfold PassesUnfiltered OwnNumbers
  refine forall₂_congr fun port hport => ?_
  have hown : (port.toNat : Int) ∈ ports.flatten →
      ∃ n ∈ ports.flatten, PortFilterMap.index n = .ok port :=
    fun hmem => ⟨port.toNat, hmem, PortFilterMap.index_toNat port⟩
  unfold isPortGloballyFiltered
  rw [hzero, loadPortFilters_zeros hports hload hport, hlisted]
  generalize ports.flatten = listed at hown
  by_cases hnamed : ∃ n ∈ listed, PortFilterMap.index n = .ok port
  · rw [if_pos hnamed, forall_prop_of_true hnamed]
    rcases hmode with rfl | rfl <;>
      simp [PortFilter.ofMode, PortFilter.passes, PortFilterMode.value]
  · have hmem : (port.toNat : Int) ∉ listed := fun hmem => hnamed (hown hmem)
    rw [if_neg hnamed, forall_prop_of_false hnamed]
    rcases hmode with rfl | rfl <;>
      simp [PortFilter.ofMode, PortFilter.passes, PortFilterMode.value, hmem]

/-- What the base class takes from the settings it merged. -/
theorem template_of_base {config : ProbeConfig} {built : BuiltConfig}
    (h : buildProbeConfigBase Probe.netListen.configDefaults config false = .ok built) :
    getItem built.template "filters" = .ok built.netFilters ∧
      globalFilters built.template = built.globalFilters := by
  rcases bind_eq_ok.1 h with ⟨netFilters, hfilters, h⟩
  rcases bind_eq_ok.1 h with ⟨count, _, h⟩
  cases h
  exact ⟨hfilters, rfl⟩

/-- Both methods choose the same list. -/
theorem netListenPortFilter_eq {config : ProbeConfig}
    (hkeys : ∃ value, config.get? "excludeports" = some value)
    (h : asPorts (globalFilters config).1 = .ok specs) :
    netListenPortFilter config = userlandPorts (globalFilters config).2 specs := by
  unfold globalFilters at h ⊢
  unfold netListenPortFilter getItem
  by_cases hinclude : isTruthy (config.get? "includeports") = true
  · rw [if_pos hinclude] at h
    rw [if_pos hinclude, if_pos hinclude]
    cases hget : config.get? "includeports" with
    | none => simp [hget, isTruthy] at hinclude
    | some value =>
        have hspecs : asPorts value = .ok specs := by simpa [hget] using h
        show (asPorts value >>= _) = _
        rw [hspecs]
        show (specs.mapM PortSpec.toInt >>= _) = (specs.mapM PortSpec.toInt).map PortFilter.only
        cases specs.mapM PortSpec.toInt <;> rfl
  · rw [if_neg hinclude] at h
    rw [if_neg hinclude, if_neg hinclude]
    rcases hkeys with ⟨value, hget⟩
    have hspecs : asPorts value = .ok specs := by simpa [hget] using h
    rw [hget]
    show (asPorts value >>= _) = _
    rw [hspecs]
    show ((specs.map pyStr).mapM excludedPorts >>= _) = ((specs.map pyStr).mapM excludedPorts).map _
    cases (specs.map pyStr).mapM excludedPorts <;> rfl

end Agreement

/-- The setting is among the defaults. -/
theorem template_excludeports {config : ProbeConfig} {built : BuiltConfig}
    (h : buildProbeConfigBase Probe.netListen.configDefaults config false = .ok built) :
    ∃ value, built.template.get? "excludeports" = some value := by
  have hmerge := Dict.get?_merge Probe.netListen.configDefaults config "excludeports"
  unfold Dict.merge at hmerge
  rw [(buildProbeConfigBase_eq_ok.1 h).2.2.1, get?_template (by decide), hmerge]
  cases config.get? "excludeports" with
  | some value => exact ⟨value, rfl⟩
  | none => exact ⟨.ports [], rfl⟩

theorem netListen_buildProbeConfig_eq {e : Endian} {config : ProbeConfig} {built : BuiltConfig}
    {filters : List FilterEntry} {filtering : NetFilter} {specs : List PortSpec} (hotswapOnly : Bool)
    (hbase : buildProbeConfigBase Probe.netListen.configDefaults config false = .ok built)
    (hlist : asFilters built.netFilters = .ok filters)
    (hfiltering : NetFilter.init e filters = .ok filtering)
    (hports : asPorts built.globalFilters.1 = .ok specs) :
    Probe.netListen.buildProbeConfig e config hotswapOnly =
      (userlandPorts built.globalFilters.2 specs).map
        fun filter => (built, some ⟨filtering, filter⟩) := by
  rcases template_of_base hbase with ⟨hfilters, hglobal⟩
  rw [← hglobal] at hports ⊢
  have huserland : netListenFilters e built.template =
      (userlandPorts (globalFilters built.template).2 specs).map fun filter =>
        ⟨filtering, filter⟩ := by
    unfold netListenFilters
    rw [hfilters, netListenPortFilter_eq (template_excludeports hbase) hports]
    show (asFilters built.netFilters >>= _) = _
    rw [hlist]
    show (NetFilter.init e filters >>= _) = _
    rw [hfiltering]
    cases userlandPorts (globalFilters built.template).2 specs <;> rfl
  unfold Probe.buildProbeConfig
  simp only
  rw [hbase]
  show (netListenFilters e built.template >>= _) = _
  rw [huserland]
  cases userlandPorts (globalFilters built.template).2 specs <;> rfl

/-- `net_listen` accepts the configuration, and its filter agrees with the array. -/
def NetListenAgrees (e : Endian) (config : ProbeConfig) (hotswapOnly : Bool) (m : PortFilterMap) :
    Prop :=
  ∃ built userland, Probe.netListen.buildProbeConfig e config hotswapOnly =
    .ok (built, some userland) ∧ PassesUnfiltered userland.portFilter m

/-- Let the base class accept the settings and the loader the port list that they choose, and let nothing
be wrong with the network filters.  Then `net_listen` accepts the settings too, and filters the ports that
the kernel filters, just when it reads the list alike and every named port is listed itself. -/
theorem net_listen_agrees_iff {e : Endian} {order : IterOrder Int} {config : ProbeConfig}
    {hotswapOnly : Bool} {built : BuiltConfig} {filters : List FilterEntry} {filtering : NetFilter}
    {specs : List PortSpec}
    (hbase : buildProbeConfigBase Probe.netListen.configDefaults config false = .ok built)
    (hspecs : asPorts built.globalFilters.1 = .ok specs)
    (hload : (loadGlobalFilters order built.globalFilters PortFilterMap.zeros false).error = none)
    (hlist : asFilters built.netFilters = .ok filters)
    (hfiltering : NetFilter.init e filters = .ok filtering) :
    NetListenAgrees e config hotswapOnly
        (loadGlobalFilters order built.globalFilters PortFilterMap.zeros false).final ↔
      ReadAlike built.globalFilters.2 specs ∧ OwnNumbers specs := by
  have hbuild := netListen_buildProbeConfig_eq hotswapOnly hbase hlist hfiltering hspecs
  rw [loadGlobalFilters_eq hspecs] at hload ⊢
  rcases loadPortFilters_error_iff.1 hload with ⟨_, ports, hports, _⟩
  have hlisted : listedPorts specs = ports.flatten := by
    simp [listedPorts, hports]
  have hagree := passesUnfiltered_iff hload
  rw [hlisted] at hagree
  unfold NetListenAgrees
  rw [hbuild, ← hagree]
  constructor
  · rintro ⟨built', userland, hmap, hpasses⟩
    rcases map_eq_ok.1 hmap with ⟨filter, hfilter, hpair⟩
    cases hpair
    rcases (userlandPorts_eq_ok hports).1 hfilter with ⟨hread, rfl⟩
    exact ⟨hread, hpasses⟩
  · rintro ⟨hread, hpasses⟩
    have hfilter := (userlandPorts_eq_ok hports).2 ⟨hread, rfl⟩
    exact ⟨built, _, map_eq_ok.2 ⟨_, hfilter, rfl⟩, hpasses⟩

/-! ### Two lists that are read alike, and a range to include -/

namespace Example

/-- Both lists are given, so that `includeports` counts. -/
def webPorts : ProbeConfig :=
  Dict.empty.update [("includeports", .ports [.int 80, .str "443"]),
    ("excludeports", .ports [.str "1-1024"])]

def rangeToInclude : ProbeConfig :=
  Dict.empty.update [("includeports", .ports [.str "8000-8001"])]

end Example

theorem web_ports_agree :
    NetListenAgrees .little Example.webPorts true
      (loadGlobalFilters .listed (.ports [.int 80, .str "443"], .include) PortFilterMap.zeros
        false).final := by
  have hlisted : listedPorts [.int 80, .str "443"] = [80, 443] := by decide +kernel
  have hbase : ∃ built, buildProbeConfigBase Probe.netListen.configDefaults Example.webPorts false =
      .ok built ∧ built.netFilters = .filters [] ∧
        built.globalFilters = (.ports [.int 80, .str "443"], .include) := ⟨_, rfl, rfl, rfl⟩
  rcases hbase with ⟨built, hbase, hfilters, hglobal⟩
  have hspecs : asPorts built.globalFilters.1 = .ok [.int 80, .str "443"] := by
    rw [hglobal]
    rfl
  have hload : (loadGlobalFilters .listed built.globalFilters PortFilterMap.zeros false).error =
      none := by
    rw [hglobal]
    decide +kernel
  have hlist : asFilters built.netFilters = .ok [] := by
    rw [hfilters]
    rfl
  have hagree : NetListenAgrees .little Example.webPorts true _ ↔ _ :=
    net_listen_agrees_iff hbase hspecs hload hlist rfl
  rw [hglobal] at hagree
  refine hagree.2 ⟨?_, ?_⟩
  · intro s hs
    have hs : s = "443" := by simpa using hs
    rw [hs]
    decide
  · refine ownNumbers_of_ports ?_
    simp [hlisted]

/-- The base class and the loader take a range in `includeports`, `net_listen` does not. -/
theorem range_to_include_refused :
    (∃ built, buildProbeConfigBase Probe.netListen.configDefaults Example.rangeToInclude false =
        .ok built ∧
      (loadGlobalFilters .listed built.globalFilters PortFilterMap.zeros false).error = none ∧
      ¬ NetListenAgrees .little Example.rangeToInclude false
        (loadGlobalFilters .listed built.globalFilters PortFilterMap.zeros false).final) ∧
      (Probe.netListen.buildProbeConfig .little Example.rangeToInclude false).map Prod.snd =
        .error (.builtin .ValueError) := by
  have herror : Probe.netListen.buildProbeConfig .little Example.rangeToInclude false =
      .error (.builtin .ValueError) := rfl
  refine ⟨⟨_, rfl, by decide +kernel, ?_⟩, by rw [herror]; rfl⟩
  rintro ⟨built', userland, hok, _⟩
  rw [herror] at hok
  cases hok

end Probes

end PidtreeBcc
