import Mathlib.Data.List.MinMax
import Mathlib.Data.List.Nodup
import TypeTrace.Proofs.Trace
import TypeTrace.Proofs.Trace.Spots

/-! # What depths tell

The depth of an entry is the number of listed nodes above its node. The depths of a trace alone tell
which of the listed nodes stand within which: the innermost around a node is the last one in front
whose depth is smaller by one.
-/

namespace TypeTrace

namespace Spot

/-- The innermost of the spots in a list that are above one. -/
structure Innermost (listed : List Spot) (p s : Spot) : Prop where
  mem : p ∈ listed
  above : p.Above s
  within : ∀ r ∈ listed, r.Above s → r = p ∨ r.Above p

/-- The number of spots above one. -/
def height (listed : List Spot) (s : Spot) : Nat := listed.countP fun p => p.Above s

variable {p r s : Spot} {listed : List Spot} {i j : Nat}

/-! ## Heights in a list -/

theorem height_lt_of_above (hp : p ∈ listed) (h : p.Above s) :
    height listed p < height listed s := by
  obtain ⟨left, right, rfl⟩ := List.append_of_mem hp
  have hle (part : List Spot) : height part p ≤ height part s :=
    List.countP_mono_left fun r _ hr => decide_eq_true ((of_decide_eq_true hr).trans h)
  have hleft := hle left
  have hright := hle right
  have hself : ¬ p.Above p := not_above_of_le le_rfl
  unfold height at *
  rw [List.countP_append, List.countP_append, List.countP_cons_of_neg (by simpa using hself),
    List.countP_cons_of_pos (by simpa using h)]
  omega

namespace Ordered

variable (h : Ordered listed)

include h

theorem lt_iff (hj : listed[j]? = some p) (hi : listed[i]? = some s) :
    j < i ↔ p.address < s.address := by
  obtain ⟨hj', rfl⟩ := List.getElem?_eq_some_iff.mp hj
  obtain ⟨hi', rfl⟩ := List.getElem?_eq_some_iff.mp hi
  have hlt := List.pairwise_iff_getElem.mp h
  refine ⟨hlt j i hj' hi', fun haddress => ?_⟩
  rcases Nat.lt_trichotomy j i with hji | rfl | hij
  · exact hji
  · exact absurd haddress (lt_irrefl _)
  · exact absurd haddress (hlt i j hi' hj' hij).asymm

theorem eq_of_address_eq (hp : p ∈ listed) (hr : r ∈ listed) (haddress : p.address = r.address) :
    p = r := by
  have hnodup : (listed.map Spot.address).Nodup := List.pairwise_map.mpr (h.imp LT.lt.ne)
  exact List.inj_on_of_nodup_map hnodup hp hr haddress

theorem height_le (hp : p ∈ listed) (hwithin : ∀ r ∈ listed, r.Above s → r = p ∨ r.Above p) :
    height listed s ≤ height listed p + 1 := by
  obtain ⟨left, right, rfl⟩ := List.append_of_mem hp
  obtain ⟨-, hright, hleft⟩ := List.pairwise_append.mp h
  -- Apart from `p` itself, all that is above `s` is above `p`.
  have hle (part : List Spot) (hpart : part ⊆ left ++ p :: right) (hnot : p ∉ part) :
      height part s ≤ height part p := by
    refine List.countP_mono_left fun r hr habove => decide_eq_true ?_
    rcases hwithin r (hpart hr) (of_decide_eq_true habove) with rfl | habove
    · exact absurd hr hnot
    · exact habove
  have hleft := hle left (List.subset_append_left _ _)
    fun hmem => (hleft p hmem p List.mem_cons_self).false
  have hright := hle right (fun r hr => by simp [hr])
    fun hmem => (List.rel_of_pairwise_cons hright hmem).false
  have hone : height [p] s ≤ height [p] p + 1 :=
    List.countP_le_length.trans (Nat.le_add_left _ _)
  unfold height at *
  rw [← List.singleton_append]
  simp only [List.countP_append]
  omega

/-- Among the spots above one, all of which lie on the way to it, that with the longest address is the
innermost. -/
theorem exists_innermost (hpositive : 0 < height listed s) : ∃ p, Innermost listed p s := by
  have hmem {r : Spot} (hr : r ∈ listed) (habove : r.Above s) :
      r ∈ listed.filter fun p => p.Above s := List.mem_filter.mpr ⟨hr, decide_eq_true habove⟩
  obtain ⟨q, hq, habove⟩ := List.countP_pos_iff.mp hpositive
  obtain ⟨p, hp⟩ := Option.ne_none_iff_exists'.mp fun hnone =>
    List.ne_nil_of_mem (hmem hq (of_decide_eq_true habove))
      (List.argmax_eq_none (f := fun p : Spot => p.address.length).mp hnone)
  obtain ⟨hplisted, hps⟩ := List.mem_filter.mp (List.argmax_mem hp)
  have hps := of_decide_eq_true hps
  refine ⟨p, hplisted, hps, fun r hr hrs => ?_⟩
  have hlength : r.address.length ≤ p.address.length :=
    List.le_of_mem_argmax (f := fun p : Spot => p.address.length) (hmem hr hrs) hp
  by_cases haddress : r.address = p.address
  · exact Or.inl (h.eq_of_address_eq hr hplisted haddress)
  · exact Or.inr ⟨List.prefix_of_prefix_length_le hrs.through hps.through hlength, haddress⟩

theorem height_first (hs : listed[0]? = some s) : height listed s = 0 := by
  refine List.countP_eq_zero.mpr fun p hp habove => ?_
  obtain ⟨j, hj⟩ := List.mem_iff_getElem?.mp hp
  exact absurd ((h.lt_iff hj hs).mpr (of_decide_eq_true habove).lt) (Nat.not_lt_zero j)

theorem height_step (hr : listed[i]? = some r) (hs : listed[i + 1]? = some s) :
    height listed s ≤ height listed r + 1 := by
  refine h.height_le (List.mem_of_getElem? hr) fun q hq habove => ?_
  obtain ⟨k, hk⟩ := List.mem_iff_getElem?.mp hq
  have hlt : k < i + 1 := (h.lt_iff hk hs).mpr habove.lt
  rcases Nat.lt_or_eq_of_le (Nat.le_of_lt_succ hlt) with hlt | rfl
  · have hrs := (h.lt_iff hr hs).mp (Nat.lt_succ_self i)
    exact Or.inr (habove.of_between ((h.lt_iff hk hr).mp hlt) hrs)
  · exact Or.inl (Option.some.inj (hk.symm.trans hr))

theorem height_innermost (hinnermost : Innermost listed p s) :
    height listed s = height listed p + 1 :=
  Nat.le_antisymm (h.height_le hinnermost.mem hinnermost.within)
    (height_lt_of_above hinnermost.mem hinnermost.above)

/-- Whatever begins between a spot and one below it is deeper than the upper of the two. -/
theorem height_between {k : Nat} (hj : listed[j]? = some p) (hk : listed[k]? = some r)
    (hi : listed[i]? = some s) (habove : p.Above s) (hjk : j < k) (hki : k ≤ i) :
    height listed p < height listed r := by
  refine height_lt_of_above (List.mem_of_getElem? hj) ?_
  rcases Nat.lt_or_eq_of_le hki with hki | rfl
  · exact habove.of_between ((h.lt_iff hj hk).mp hjk) ((h.lt_iff hk hi).mp hki)
  · rwa [Option.some.inj (hk.symm.trans hi)]

/-- A spot is above another if all that begins behind it, up to the other, is deeper. -/
theorem above_of_deeper (hj : listed[j]? = some p) (hi : listed[i]? = some s) (hji : j < i)
    (hdeeper : ∀ k, j < k → k ≤ i → ∀ r ∈ listed[k]?, height listed p < height listed r) :
    p.Above s := by
  induction i using Nat.strongRecOn generalizing s with
  | ind i ih =>
      have hps := hdeeper i hji (Nat.le_refl i) s hi
      obtain ⟨q, hq⟩ := h.exists_innermost (Nat.zero_lt_of_lt hps)
      have hheight := h.height_innermost hq
      obtain ⟨m, hm⟩ := List.mem_iff_getElem?.mp hq.mem
      have hmi := (h.lt_iff hm hi).mpr hq.above.lt
      rcases Nat.lt_trichotomy m j with hmj | rfl | hjm
      · -- What is above `s` and begins before `p` is above `p`, which would be as deep as `s`.
        have hqp := h.height_between hm hj hi hq.above hmj (Nat.le_of_lt hji)
        omega
      · rw [Option.some.inj (hj.symm.trans hm)]
        exact hq.above
      · refine (ih m hmi hm hjm fun k hjk hkm => ?_).trans hq.above
        exact hdeeper k hjk (hkm.trans (Nat.le_of_lt hmi))

end Ordered

end Spot

namespace Trace

/-! ## Depths -/

/-- The last depth in front of one that is smaller by one. -/
structure Encloses (depths : List Int) (j i : Nat) : Prop where
  lt : j < i
  depth : depths[i]? = depths[j]?.map (· + 1)
  last : ∀ k, j < k → k < i → depths[i]? ≠ depths[k]?.map (· + 1)

/-- The depths behind one are greater, up to another. -/
structure Spans (depths : List Int) (j i : Nat) : Prop where
  lt : j < i
  deeper : ∀ (k : Nat) (c d : Int), j < k → k ≤ i → depths[j]? = some c → depths[k]? = some d → c < d

/-- What depths tell of the spots that are listed with them. -/
structure Nesting (listed : List Spot) (depths : List Int) : Prop where
  first : ∀ d, depths[0]? = some d → d = 0
  step : ∀ (i : Nat) (c d : Int), depths[i]? = some c → depths[i + 1]? = some d → d ≤ c + 1
  outermost : ∀ (i : Nat) (s : Spot), listed[i]? = some s →
    (depths[i]? = some 0 ↔ ∀ p ∈ listed, ¬ p.Above s)
  enclosing : ∀ (i : Nat) (s : Spot), listed[i]? = some s → depths[i]? ≠ some 0 →
    ∃ (j : Nat) (p : Spot), listed[j]? = some p ∧ Encloses depths j i ∧ Spot.Innermost listed p s
  above : ∀ (j i : Nat) (p s : Spot), listed[j]? = some p → listed[i]? = some s →
    (p.Above s ↔ Spans depths j i)

/-- The heights of spots, as depths. -/
def depths (listed : List Spot) : List Int := listed.map fun s => (Spot.height listed s : Int)

section

variable {listed : List Spot} {i j : Nat} {p s : Spot}

theorem getElem?_depths (hs : listed[i]? = some s) :
    (depths listed)[i]? = some (Spot.height listed s : Int) := by
  rw [depths, List.getElem?_map, hs, Option.map_some]

theorem exists_of_getElem?_depths {d : Int} (hd : (depths listed)[i]? = some d) :
    ∃ s, listed[i]? = some s ∧ (Spot.height listed s : Int) = d := by
  rwa [depths, List.getElem?_map, Option.map_eq_some_iff] at hd

variable (h : Spot.Ordered listed)

include h

theorem encloses_of_innermost (hj : listed[j]? = some p) (hs : listed[i]? = some s)
    (hp : Spot.Innermost listed p s) : Encloses (depths listed) j i where
  lt := (h.lt_iff hj hs).mpr hp.above.lt
  depth := by
    rw [getElem?_depths hs, getElem?_depths hj, h.height_innermost hp]
    rfl
  last k hjk hki hk := by
    rw [getElem?_depths hs, eq_comm, Option.map_eq_some_iff] at hk
    obtain ⟨d, hd, hnext⟩ := hk
    obtain ⟨r, hr, rfl⟩ := exists_of_getElem?_depths hd
    have hinnermost := h.height_innermost hp
    have hbetween := h.height_between hj hr hs hp.above hjk (Nat.le_of_lt hki)
    omega

theorem above_iff_spans (hj : listed[j]? = some p) (hs : listed[i]? = some s) :
    p.Above s ↔ Spans (depths listed) j i := by
  constructor
  · intro habove
    refine ⟨(h.lt_iff hj hs).mpr habove.lt, fun k c d hjk hki hc hd => ?_⟩
    obtain ⟨r, hr, rfl⟩ := exists_of_getElem?_depths hd
    rw [getElem?_depths hj, Option.some.injEq] at hc
    rw [← hc]
    exact_mod_cast h.height_between hj hr hs habove hjk hki
  · intro hspans
    refine h.above_of_deeper hj hs hspans.lt fun k hjk hki r hr => ?_
    exact_mod_cast hspans.deeper k _ _ hjk hki (getElem?_depths hj) (getElem?_depths hr)

theorem nesting_depths : Nesting listed (depths listed) where
  first d hd := by
    obtain ⟨s, hs, rfl⟩ := exists_of_getElem?_depths hd
    exact congrArg Nat.cast (h.height_first hs)
  step i c d hc hd := by
    obtain ⟨r, hr, rfl⟩ := exists_of_getElem?_depths hc
    obtain ⟨s, hs, rfl⟩ := exists_of_getElem?_depths hd
    exact_mod_cast h.height_step hr hs
  outermost i s hs := by
    rw [getElem?_depths hs, Option.some.injEq, Int.natCast_eq_zero, Spot.height,
      List.countP_eq_zero]
    simp
  enclosing i s hs hdepth := by
    rw [getElem?_depths hs, Ne, Option.some.injEq, Int.natCast_eq_zero] at hdepth
    obtain ⟨p, hp⟩ := h.exists_innermost (Nat.pos_of_ne_zero hdepth)
    obtain ⟨j, hj⟩ := List.mem_iff_getElem?.mp hp.mem
    exact ⟨j, p, hj, encloses_of_innermost h hj hs hp, hp⟩
  above j i p s hj hs := above_iff_spans h hj hs

end

theorem countP_above_eq {document : Node} {s : Spot} (kinds : List String)
    (hs : s ∈ document.spots) :
    s.above.countP (lists kinds) =
      Spot.height (document.spots.filter fun p => lists kinds p.node) s := by
  rw [Spot.height, List.countP_filter, Node.above_eq hs, List.countP_map, List.countP_filter]
  exact List.countP_congr fun p _ => by simp [and_comm]

/-- The entries of a trace are those of the listed nodes in their order, and their depths alone tell
how these stand within each other. -/
theorem depths_tell_nesting {text : String} {document : Node} (schema : Schema)
    (lookup : FieldLookup) (kinds : List String) (hparse : Node.parse text = .ok document) :
    let listed := document.spots.filter fun s => kinds.contains s.node.kind.text
    ∃ entries, ofDocument schema lookup kinds document = .ok entries ∧
      entries = listed.map (fun s => entryAt schema lookup kinds s.toPlace) ∧
      Nesting listed (entries.map Entry.depth) := by
  intro listed
  have hlisted : (document.places.filter fun place => lists kinds place.node) =
      listed.map Spot.toPlace := by
    rw [← Node.map_toPlace_spots, List.filter_map]
    rfl
  have hentries : entriesAt schema lookup kinds document.places =
      listed.map fun s => entryAt schema lookup kinds s.toPlace := by
    rw [entriesAt, hlisted, List.map_map]
    rfl
  have hdepths : (entriesAt schema lookup kinds document.places).map Entry.depth =
      depths listed := by
    rw [hentries, List.map_map]
    refine List.map_congr_left fun s hs => ?_
    exact congrArg Nat.cast (countP_above_eq kinds (List.mem_of_mem_filter hs))
  refine ⟨_, ofDocument_eq (Node.wellFormed_of_parse hparse), hentries, ?_⟩
  rw [hdepths]
  exact nesting_depths ((Forest.ordered_spots _ _ _ _).filter _)

/-- A list and an argument that are not listed stand between a value and the field around it. -/
theorem depths_tell_nesting_on_ring :
    ∃ document, Node.parse "{a(x: [1]) {b} ... on Nope {a}}" = .ok document ∧
      (let listed := document.spots.filter fun s =>
          ["field", "int_value"].contains s.node.kind.text
        ∃ entries, ofDocument .ring .standard ["field", "int_value"] document = .ok entries ∧
          entries = listed.map (fun s =>
            entryAt .ring .standard ["field", "int_value"] s.toPlace) ∧
          Nesting listed (entries.map Entry.depth)) := by
  obtain ⟨document, hparse⟩ :
      ∃ document, Node.parse "{a(x: [1]) {b} ... on Nope {a}}" = .ok document := ⟨_, rfl⟩
  exact ⟨document, hparse, depths_tell_nesting .ring .standard ["field", "int_value"] hparse⟩

example : (Node.parse "{a(x: [1]) {b} ... on Nope {a}}").toOption.map
    (fun document => (document.spots.filter fun s =>
      ["field", "int_value"].contains s.node.kind.text).map Spot.address) =
    some [[0, 0, 0, 0], [0, 0, 0, 0, 1, 1, 0], [0, 0, 0, 0, 2, 0], [0, 0, 0, 1, 1, 0]] := by
  decide +kernel

end Trace

end TypeTrace
