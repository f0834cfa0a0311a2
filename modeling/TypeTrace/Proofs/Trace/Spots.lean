import Mathlib.Data.List.Lex
import TypeTrace.Proofs.Refinement

/-! # Addresses

The address of a node is the way to it from the root: which of its siblings each node on the path is.
A node is above another if its address is the beginning of the other's. Nodes begin in the
lexicographic order of their addresses, so whatever begins between a node and one below it is below it
too.
-/

namespace TypeTrace

/-- A place with its address: which of its siblings each node on the path to it is. -/
structure Spot extends Place where
  address : List Nat

/-- The spots of trees that are numbered from some number on, below an address. -/
def Forest.spots (address : List Nat) (above : List Node) (number : Nat) : Forest → List Spot
  | .nil => []
  | .cons _ head children rest =>
      ⟨⟨above, ⟨head, children⟩⟩, address ++ [number]⟩ ::
        (children.spots (address ++ [number]) (above ++ [⟨head, children⟩]) 0 ++
          rest.spots address above (number + 1))

/-- The spots of a document, as the only tree of a forest. -/
def Node.spots (document : Node) : List Spot :=
  (Forest.ofList .definitions [document]).spots [] [] 0

namespace Spot

/-- One spot is above another if the way to the other leads through it. -/
structure Above (p s : Spot) : Prop where
  through : p.address <+: s.address
  ne : p.address ≠ s.address

instance (p s : Spot) : Decidable (p.Above s) :=
  decidable_of_iff (p.address <+: s.address ∧ p.address ≠ s.address)
    ⟨fun ⟨hthrough, hne⟩ => ⟨hthrough, hne⟩, fun h => ⟨h.through, h.ne⟩⟩

/-- Spots in the order in which their nodes begin. -/
def Ordered (listed : List Spot) : Prop := listed.Pairwise (·.address < ·.address)

variable {p r s : Spot}

theorem Above.lt (h : p.Above s) : p.address < s.address :=
  lt_of_le_of_ne (not_lt.mp h.through.le) h.ne

theorem Above.trans (hpr : p.Above r) (hrs : r.Above s) : p.Above s where
  through := hpr.through.trans hrs.through
  ne := (hpr.lt.trans hrs.lt).ne

theorem not_above_of_le (h : s.address ≤ p.address) : ¬ p.Above s :=
  fun habove => (habove.lt.trans_le h).false

/-- Below different trees of one forest, no spot is above another. -/
theorem not_above_of_beside {address left right : List Nat} {m n : Nat}
    (hp : p.address = address ++ m :: left) (hs : s.address = address ++ n :: right)
    (hne : m ≠ n) : ¬ p.Above s := by
  intro h
  have hprefix := h.through
  rw [hp, hs, List.prefix_append_right_inj, List.cons_prefix_cons] at hprefix
  exact hne hprefix.1

theorem filter_above_eq_nil {spots : List Spot} (h : ∀ p ∈ spots, ¬ p.Above s) :
    (spots.filter fun p => p.Above s) = [] :=
  List.filter_eq_nil_iff.mpr fun p hp => by simpa using h p hp

theorem isPrefix_of_between {p x s : List Nat} (h : p <+: s) (hpx : p < x) (hxs : x < s) :
    p <+: x := by
  induction p generalizing x s with
  | nil => exact List.nil_prefix
  | cons number p ih =>
      obtain ⟨more, rfl⟩ := h
      cases x with
      | nil => exact absurd hpx (List.not_lt_nil _)
      | cons other x =>
          rw [List.cons_append] at hxs
          rcases List.cons_lt_cons_iff.mp hpx with hlt | ⟨rfl, hpx'⟩
          · rcases List.cons_lt_cons_iff.mp hxs with hgt | ⟨rfl, -⟩
            · exact absurd hlt (Nat.lt_asymm hgt)
            · exact absurd hlt (Nat.lt_irrefl _)
          · rw [List.cons_lt_cons_self] at hxs
            exact List.cons_prefix_cons.mpr ⟨rfl, ih (List.prefix_append _ _) hpx' hxs⟩

/-- What begins between a spot and one below it is below it. -/
theorem Above.of_between (h : p.Above s) (hpr : p.address < r.address)
    (hrs : r.address < s.address) : p.Above r where
  through := isPrefix_of_between h.through hpr hrs
  ne := hpr.ne

end Spot

/-! ## Spots of a forest -/

namespace Forest

variable {forest : Forest} {address : List Nat} {above : List Node} {number : Nat} {s : Spot}

theorem map_toPlace_spots :
    (forest.spots address above number).map Spot.toPlace = forest.places above := by
  induction forest generalizing address above number with
  | nil => rfl
  | cons role head children rest ihchildren ihrest =>
      rw [spots, places, List.map_cons, List.map_append, ihchildren, ihrest]

theorem exists_address_eq (h : s ∈ forest.spots address above number) :
    ∃ n more, number ≤ n ∧ s.address = address ++ n :: more := by
  induction forest generalizing address above number with
  | nil => exact absurd h List.not_mem_nil
  | cons role head children rest ihchildren ihrest =>
      rcases List.mem_cons.mp h with rfl | h
      · exact ⟨number, [], le_rfl, rfl⟩
      · rcases List.mem_append.mp h with h | h
        · obtain ⟨n, more, -, haddress⟩ := ihchildren h
          exact ⟨number, n :: more, le_rfl, by rw [haddress, List.append_assoc]; rfl⟩
        · obtain ⟨n, more, hle, haddress⟩ := ihrest h
          exact ⟨n, more, Nat.le_of_succ_le hle, haddress⟩

/-- A tree begins before all that is below it, and this before the trees to the right. -/
theorem ordered_spots (forest : Forest) (address : List Nat) (above : List Node) (number : Nat) :
    Spot.Ordered (forest.spots address above number) := by
  induction forest generalizing address above number with
  | nil => exact List.Pairwise.nil
  | cons role head children rest ihchildren ihrest =>
      have hbranch {n : Nat} (hlt : number < n) (left right : List Nat) :
          address ++ number :: left < address ++ n :: right :=
        List.append_left_lt (List.cons_lt_cons_iff.mpr (Or.inl hlt))
      refine List.pairwise_cons.mpr ⟨List.forall_mem_append.mpr ⟨fun r hr => ?_, fun r hr => ?_⟩,
        List.pairwise_append.mpr ⟨ihchildren _ _ _, ihrest _ _ _, fun r hr t ht => ?_⟩⟩
      · obtain ⟨n, more, -, haddress⟩ := exists_address_eq hr
        rw [haddress, List.append_assoc]
        exact List.append_left_lt (List.cons_lt_cons_self.mpr (List.nil_lt_cons n more))
      · obtain ⟨n, more, hlt, haddress⟩ := exists_address_eq hr
        rw [haddress]
        exact hbranch hlt [] more
      · obtain ⟨m, left, -, hleft⟩ := exists_address_eq hr
        obtain ⟨n, right, hlt, hright⟩ := exists_address_eq ht
        rw [hleft, hright, List.append_assoc]
        exact hbranch hlt (m :: left) right

/-- The spots above one are those of the nodes above it. -/
theorem above_eq (hs : s ∈ forest.spots address above number) :
    s.above = above ++
      ((forest.spots address above number).filter fun p => p.Above s).map fun p => p.node := by
  induction forest generalizing address above number with
  | nil => exact absurd hs List.not_mem_nil
  | cons role head children rest ihchildren ihrest =>
      have hordered := ordered_spots (.cons role head children rest) address above number
      obtain ⟨hhead, htail⟩ := List.pairwise_cons.mp hordered
      obtain ⟨-, -, hright⟩ := List.pairwise_append.mp htail
      rw [spots]
      rcases List.mem_cons.mp hs with rfl | hs
      · -- Everything else begins later, so nothing is above the tree itself.
        rw [Spot.filter_above_eq_nil (List.forall_mem_cons.mpr ⟨Spot.not_above_of_le le_rfl,
          fun p hp => Spot.not_above_of_le (hhead p hp).le⟩)]
        exact (List.append_nil _).symm
      · rcases List.mem_append.mp hs with hs | hs
        · obtain ⟨n, more, -, haddress⟩ := exists_address_eq hs
          have hself : Spot.Above ⟨⟨above, ⟨head, children⟩⟩, address ++ [number]⟩ s :=
            ⟨haddress ▸ List.prefix_append _ _, (hhead s (List.mem_append_left _ hs)).ne⟩
          have hrest := Spot.filter_above_eq_nil fun p hp =>
            Spot.not_above_of_le (hright s hs p hp).le
          rw [List.filter_cons_of_pos (by simpa using hself), List.filter_append, hrest,
            List.append_nil, List.map_cons, ihchildren hs, List.append_assoc]
          rfl
        · obtain ⟨n, more, hlt, haddress⟩ := exists_address_eq hs
          have hne : number ≠ n := Nat.ne_of_lt hlt
          have hchildren : ∀ p ∈ children.spots (address ++ [number])
              (above ++ [⟨head, children⟩]) 0, ¬ p.Above s := by
            intro p hp
            obtain ⟨m, left, -, hleft⟩ := exists_address_eq hp
            rw [List.append_assoc] at hleft
            exact Spot.not_above_of_beside hleft haddress hne
          rw [List.filter_cons_of_neg (by simpa using Spot.not_above_of_beside rfl haddress hne),
            List.filter_append, Spot.filter_above_eq_nil hchildren, List.nil_append]
          exact ihrest hs

end Forest

theorem Node.map_toPlace_spots (document : Node) :
    document.spots.map Spot.toPlace = document.places := by
  rw [places_eq, spots, Forest.map_toPlace_spots]

theorem Node.above_eq {document : Node} {s : Spot} (hs : s ∈ document.spots) :
    s.above = (document.spots.filter fun p => p.Above s).map fun p => p.node :=
  Forest.above_eq hs

end TypeTrace
