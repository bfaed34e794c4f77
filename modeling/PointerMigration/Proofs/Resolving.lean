/-
# Resolving addresses

Resolving goes through the locations of a unit in preorder and carries along what it has read. What
it makes of a location does not depend on that: the texts it keeps are those that the reader gives,
so each location is resolved as if it were the only one, and each file is read once. The first
location that cannot be resolved ends it.
-/
import PointerMigration.Proofs.AddressRanges
import PointerMigration.Proofs.ProblemLists
import PointerMigration.Proofs.Rewriting
import PointerMigration.Proofs.UnitData
import PointerMigration.Source.Load
import Mathlib.Algebra.Ring.Nat

namespace PointerMigration

/-! ## Locations of a unit -/

mutual

/-- A node with all locations in it changed. -/
def Node.mapLocations (f : Location → Location) : Node → Node
  | n@{ inner, .. } =>
    { n with
      begin := n.begin.map f
      loc := n.loc.map f
      typeLoc := n.typeLoc.map f
      inner := Node.mapLocationsOf f inner }

/-- Children with all locations in them changed. -/
def Node.mapLocationsOf (f : Location → Location) : List (Option Node) → List (Option Node)
  | [] => []
  | none :: rest => none :: Node.mapLocationsOf f rest
  | some n :: rest => some (n.mapLocations f) :: Node.mapLocationsOf f rest

end

mutual

/-- The locations in a node, in preorder. -/
def Node.allLocations : Node → List Location
  | n@{ inner, .. } => n.locations ++ Node.allLocationsOf inner

/-- The locations in children, in preorder. -/
def Node.allLocationsOf : List (Option Node) → List Location
  | [] => []
  | none :: rest => Node.allLocationsOf rest
  | some n :: rest => n.allLocations ++ Node.allLocationsOf rest

end

namespace Node

theorem mapLocations_eq (f : Location → Location) (n : Node) :
    n.mapLocations f =
      { n with
        begin := n.begin.map f
        loc := n.loc.map f
        typeLoc := n.typeLoc.map f
        inner := mapLocationsOf f n.inner } := by
  cases n
  rfl

/-- The locations of a tree are those of its root and then those of its children. -/
theorem allLocations_eq (n : Node) : n.allLocations = n.locations ++ allLocationsOf n.inner := by
  cases n
  rfl

/-- The locations of a node are the start, the name and the type, as far as they are there. -/
theorem locations_eq (n : Node) :
    n.locations = n.begin.toList ++ n.loc.toList ++ n.typeLoc.toList := by
  unfold locations
  cases n.begin <;> cases n.loc <;> cases n.typeLoc <;> rfl

/-- Nodes and rows of children by turns: a node after its children, and children one by one. -/
theorem children_induction {P : Node → Prop} {motive : List (Option Node) → Prop}
    (node : ∀ n, motive n.inner → P n) (nil : motive [])
    (gap : ∀ rest, motive rest → motive (none :: rest))
    (cons : ∀ n rest, P n → motive rest → motive (some n :: rest)) (children : List (Option Node)) :
    motive children := by
  have hrow : ∀ children : List (Option Node), (∀ c, some c ∈ children → P c) →
      motive children := by
    intro children hall
    induction children with
    | nil => exact nil
    | cons child rest ih =>
        have hrest := ih fun c hc => hall c (List.mem_cons_of_mem _ hc)
        cases child with
        | none => exact gap rest hrest
        | some n => exact cons n rest (hall n List.mem_cons_self) hrest
  have hall : ∀ n, P n := Node.induction fun n ih => node n (hrow n.inner ih)
  exact hrow children fun c _ => hall c

/-- The locations of the nodes visited from children on are those in them. -/
theorem flatMap_locations_visitsOf (children : List (Option Node))
    (ancestors : List Node) (i : Nat) :
    (visitsOf (fun _ => true) ancestors i children).flatMap (fun v => v.node.locations)
      = allLocationsOf children := by
  induction children using children_induction (P := fun n => ∀ (ancestors : List Node) (i : Nat),
    (n.visits (fun _ => true) ancestors i).flatMap (fun v => v.node.locations) = n.allLocations)
    generalizing ancestors i with
  | node n hinner ancestors i => rw [visits_eq, List.flatMap_cons, hinner, allLocations_eq]
  | nil => rfl
  | gap rest hrest => rw [visitsOf, hrest, allLocationsOf]
  | cons n rest hn hrest => rw [visitsOf, List.flatMap_append, hn, hrest, allLocationsOf]

/-- Changing the locations of trees changes each of them and keeps their order. -/
theorem allLocationsOf_mapLocationsOf (f : Location → Location) (children : List (Option Node)) :
    allLocationsOf (mapLocationsOf f children) = (allLocationsOf children).map f := by
  induction children using children_induction
    (P := fun n => (n.mapLocations f).allLocations = n.allLocations.map f) with
  | node n hinner =>
      rw [allLocations_eq, allLocations_eq, List.map_append, ← hinner, mapLocations_eq,
        locations_eq, locations_eq]
      simp [Option.toList_map]
  | nil => rfl
  | gap rest hrest => rw [mapLocationsOf, allLocationsOf, allLocationsOf, hrest]
  | cons n rest hn hrest =>
      rw [mapLocationsOf, allLocationsOf, allLocationsOf, List.map_append, hn, hrest]

end Node

namespace CompilationUnit

/-- A unit with all its locations changed. -/
def mapLocations (f : Location → Location) (u : CompilationUnit) : CompilationUnit :=
  { u with inner := Node.mapLocationsOf f u.inner }

/-- The locations of a unit: its nodes in preorder, and of each node the start, the name and the
type. -/
def locations (u : CompilationUnit) : List Location := u.nodes.flatMap Node.locations

theorem locations_eq (u : CompilationUnit) : u.locations = Node.allLocationsOf u.inner := by
  rw [locations, nodes, List.flatMap_map]
  exact Node.flatMap_locations_visitsOf u.inner [] 0

/-- Changing the locations of a unit changes each of them and keeps their order. -/
theorem locations_mapLocations (f : Location → Location) (u : CompilationUnit) :
    (u.mapLocations f).locations = u.locations.map f := by
  rw [locations_eq, locations_eq]
  exact Node.allLocationsOf_mapLocationsOf f u.inner

end CompilationUnit

/-! ## A location on its own -/

namespace Location

/-- Whether the offset is still to be found. -/
def isAddressed (l : Location) : Bool := !l.address.isEmpty

/-- The range that the address of a location denotes in the text of its file, if it can be
read and there is one. -/
def range? (read : Resolution.Reader) (l : Location) : Option AddressRange :=
  match read l.file with
  | .ok t => (Address.eval l.address 0 t).toOption
  | .error _ => none

/-- Whether a location cannot be resolved. -/
def fails (read : Resolution.Reader) (l : Location) : Bool :=
  l.isAddressed && (l.range? read).isNone

/-- What becomes of a location that can be resolved. -/
def settled (read : Resolution.Reader) (l : Location) : Location :=
  if l.isAddressed then
    match l.range? read with
    | some range => { l with offset := Int64.ofInt range.lo, address := [] }
    | none => l
  else l

theorem isAddressed_eq_false_iff {l : Location} : l.isAddressed = false ↔ l.address = [] := by
  simp [isAddressed]

variable {read : Resolution.Reader} {l : Location}

theorem settled_of_not_isAddressed (h : l.isAddressed = false) :
    l.settled read = l := by simp [settled, h]

/-- A location has a range if its file can be read and its address denotes the range in it. -/
theorem range?_eq_some_iff {range : AddressRange} :
    l.range? read = some range ↔ ∃ t, read l.file = .ok t ∧
      Address.eval l.address 0 t = .ok range := by
  unfold range?
  cases hread : read l.file with
  | error reason => simp
  | ok t => cases heval : Address.eval l.address 0 t <;> simp [Except.toOption, heval]

/-- A location with an address gets the start of the range that the address denotes,
and loses the address. -/
theorem settled_of_range? {range : AddressRange} (hl : l.isAddressed = true)
    (hrange : l.range? read = some range) :
    l.settled read = { l with offset := Int64.ofInt range.lo, address := [] } := by
  simp [settled, hl, hrange]

/-- An address that does not fail denotes a range. -/
theorem exists_range? (hl : l.isAddressed = true) (hfails : l.fails read = false) :
    ∃ range, l.range? read = some range := by
  rw [← Option.isSome_iff_exists]
  simpa [fails, hl] using hfails

/-- A location that has been resolved has no address. -/
theorem isAddressed_settled (hfails : l.fails read = false) :
    (l.settled read).isAddressed = false := by
  cases hl : l.isAddressed with
  | false => rw [settled_of_not_isAddressed hl, hl]
  | true =>
      obtain ⟨range, hrange⟩ := exists_range? hl hfails
      rw [settled_of_range? hl hrange]
      rfl

end Location

/-- The values of a list up to the first one with a property, and that one. -/
def upToFirst {α : Type} (p : α → Bool) : List α → List α
  | [] => []
  | a :: l => if p a then [a] else a :: upToFirst p l

/-- What follows a list does not matter if the list has such an element. -/
theorem upToFirst_append_of_mem {α : Type} {p : α → Bool} {l : List α} {a : α} (ha : a ∈ l)
    (hp : p a = true) (m : List α) : upToFirst p (l ++ m) = upToFirst p l := by
  induction l with
  | nil => cases ha
  | cons b l ih =>
      rw [List.cons_append, upToFirst, upToFirst]
      split
      · rfl
      · next hb =>
          rcases List.mem_cons.mp ha with rfl | ha
          · exact absurd hp hb
          · rw [ih ha]

/-- A list without such an element is passed as a whole. -/
theorem upToFirst_append {α : Type} {p : α → Bool} {l : List α} (h : ∀ a ∈ l, p a = false)
    (m : List α) :
    upToFirst p (l ++ m) = l ++ upToFirst p m := by
  induction l with
  | nil => rfl
  | cons b l ih =>
      rw [List.forall_mem_cons] at h
      rw [List.cons_append, upToFirst, if_neg (by simp [h.1]), ih h.2, List.cons_append]

/-! ## What has been read -/

namespace Resolution

variable {read : Reader} {r : Resolution} {seen : List Location}

/-- The files that are asked for when locations are resolved, up to the first that cannot be. -/
def filesAsked (read : Reader) (seen : List Location) : List Text :=
  ((upToFirst (Location.fails read) seen).filter Location.isAddressed).map Location.file

/-- As long as nothing has failed, the next location asks for its file if it has an address. -/
theorem filesAsked_concat (h : ∀ l ∈ seen, l.fails read = false) (l : Location) :
    filesAsked read (seen ++ [l])
      = filesAsked read seen ++ if l.isAddressed then [l.file] else [] := by
  have hseen : upToFirst (Location.fails read) seen = seen := by
    simpa [upToFirst] using upToFirst_append h []
  have hlast : upToFirst (Location.fails read) [l] = [l] := by simp [upToFirst]
  rw [filesAsked, filesAsked, upToFirst_append h, hseen, hlast, List.filter_append, List.map_append]
  cases hl : l.isAddressed with
  | false => simp [hl]
  | true => simp [hl]

/-- One more name is read unless it has been read before. -/
theorem reverse_insert {reads names : List Text} (h : reads.reverse = names.eraseDups)
    (file : Text) :
    (reads.insert file).reverse = (names ++ [file]).eraseDups := by
  have hmem : file ∈ reads ↔ file ∈ names := by rw [← List.mem_reverse, h, List.mem_eraseDups]
  rw [eraseDups_concat]
  by_cases hfile : file ∈ reads
  · rw [List.insert_of_mem hfile, if_pos (hmem.mp hfile), h]
  · rw [List.insert_of_not_mem hfile, if_neg (mt hmem.mpr hfile), List.reverse_cons, h]

/-- The texts that are kept are those of the files that were read. -/
structure Keeps (read : Reader) (r : Resolution) : Prop where
  names_eq : r.texts.map Prod.fst = r.reads
  texts_eq : ∀ entry ∈ r.texts, read entry.1 = .ok entry.2

/-- A text that is kept is that of its file, which has been read. -/
theorem Keeps.of_find?_eq_some (h : Keeps read r) {file : Text} {entry : Text × Text}
    (hfind : r.texts.find? (fun entry => entry.1 = file) = some entry) :
    read file = .ok entry.2 ∧ file ∈ r.reads := by
  have hmem := List.mem_of_find?_eq_some hfind
  obtain rfl : entry.1 = file := by simpa using List.find?_some hfind
  refine ⟨h.texts_eq entry hmem, ?_⟩
  rw [← h.names_eq]
  exact List.mem_map_of_mem hmem

/-- A file of which no text is kept has not been read. -/
theorem Keeps.of_find?_eq_none (h : Keeps read r) {file : Text}
    (hfind : r.texts.find? (fun entry => entry.1 = file) = none) : file ∉ r.reads := by
  rw [← h.names_eq, List.mem_map]
  rintro ⟨entry, hentry, hname⟩
  simpa [hname] using List.find?_eq_none.mp hfind entry hentry

/-- The text of a file is what the reader gives, whether or not it has been read before. -/
theorem Keeps.textOf_of_ok (h : Keeps read r) {file t : Text} (hread : read file = .ok t) :
    ∃ r', r.textOf read file = (r', some t) ∧ Keeps read r' ∧ r'.reads = r.reads.insert file ∧
      r'.failure = r.failure := by
  unfold textOf
  split
  · next hfind =>
      obtain ⟨hread', hmem⟩ := h.of_find?_eq_some hfind
      cases hread.symm.trans hread'
      exact ⟨r, rfl, h, (List.insert_of_mem hmem).symm, rfl⟩
  · next hfind =>
      rw [hread]
      refine ⟨_, rfl, ⟨?_, ?_⟩, (List.insert_of_not_mem (h.of_find?_eq_none hfind)).symm, rfl⟩
      · rw [List.map_cons, h.names_eq]
      · exact List.forall_mem_cons.mpr ⟨hread, h.texts_eq⟩

/-- A file that cannot be read is asked for, and the reason ends the resolution. -/
theorem Keeps.textOf_of_error (h : Keeps read r) {file reason : Text}
    (hread : read file = .error reason) :
    r.textOf read file
      = ({ r with reads := r.reads.insert file, failure := some (.cause (.file reason)) },
        none) := by
  unfold textOf
  split
  · next hfind =>
      obtain ⟨hread', -⟩ := h.of_find?_eq_some hfind
      cases hread.symm.trans hread'
  · next hfind => rw [hread, List.insert_of_not_mem (h.of_find?_eq_none hfind)]

/-! ## One location after another -/

theorem location_of_not_isAddressed {l : Location} (hl : l.isAddressed = false) :
    r.location read l = (r, l) := by
  have hempty : l.address.isEmpty = true := by simpa [Location.isAddressed] using hl
  simp [location, hempty]

/-- What is known when the locations `seen` have been resolved. -/
structure Account (read : Reader) (seen : List Location) (r : Resolution) : Prop where
  failure_iff : r.failure = none ↔ ∀ l ∈ seen, l.fails read = false
  reads_eq : r.reads.reverse = (filesAsked read seen).eraseDups
  keeps : r.failure = none → Keeps read r

theorem account_nil : Account read [] {} where
  failure_iff := by simp
  reads_eq := rfl
  keeps _ := ⟨rfl, by simp⟩

namespace Account

variable (h : Account read seen r)

include h

/-- If nothing fails later, nothing has failed before. -/
theorem failure_eq_none_of_append {r' : Resolution} {later : List Location}
    (h' : Account read (seen ++ later) r') (hfailure : r'.failure = none) : r.failure = none :=
  h.failure_iff.mpr fun l hl => h'.failure_iff.mp hfailure l (List.mem_append_left later hl)

/-- A location behind a failure changes nothing. -/
theorem behind (hfailure : r.failure ≠ none) (l : Location) : Account read (seen ++ [l]) r := by
  have hseen : ∃ l' ∈ seen, l'.fails read = true := by
    simpa using mt h.failure_iff.mpr hfailure
  obtain ⟨l', hl', hfails⟩ := hseen
  have hasked : filesAsked read (seen ++ [l]) = filesAsked read seen := by
    rw [filesAsked, filesAsked, upToFirst_append_of_mem hl' hfails]
  refine ⟨iff_of_false hfailure fun hall => ?_, hasked ▸ h.reads_eq, h.keeps⟩
  rw [hall l' (List.mem_append_left _ hl')] at hfails
  cases hfails

section

variable (hfailure : r.failure = none)

include hfailure

/-- Nor does a location without an address. -/
theorem plain {l : Location} (hl : l.isAddressed = false) : Account read (seen ++ [l]) r := by
  have hseen := h.failure_iff.mp hfailure
  have hfails : l.fails read = false := by simp [Location.fails, hl]
  refine ⟨iff_of_true hfailure ?_, ?_, h.keeps⟩
  · simpa [hfails, or_imp, forall_and] using hseen
  · rw [filesAsked_concat hseen, hl, h.reads_eq]
    simp

/-- The file of a location with an address is asked for, whether or not the location can be
resolved. -/
theorem reads_concat {l : Location} (hl : l.isAddressed = true) {r' : Resolution}
    (hreads : r'.reads = r.reads.insert l.file) :
    r'.reads.reverse = (filesAsked read (seen ++ [l])).eraseDups := by
  rw [filesAsked_concat (h.failure_iff.mp hfailure), if_pos hl, hreads, reverse_insert h.reads_eq]

/-- A location with an address that can be resolved. -/
theorem resolved {l : Location} (hl : l.isAddressed = true) (hrange : l.range? read ≠ none)
    {r' : Resolution} (hreads : r'.reads = r.reads.insert l.file) (hnone : r'.failure = none)
    (hkeeps : Keeps read r') :
    Account read (seen ++ [l]) r' := by
  have hseen := h.failure_iff.mp hfailure
  have hfails : l.fails read = false := by
    simpa [Location.fails, hl, Option.isSome_iff_ne_none] using hrange
  refine ⟨iff_of_true hnone ?_, h.reads_concat hfailure hl hreads, fun _ => hkeeps⟩
  exact List.forall_mem_append.mpr ⟨hseen, List.forall_mem_singleton.mpr hfails⟩

/-- A location with an address that cannot be resolved. -/
theorem failed {l : Location} (hl : l.isAddressed = true) (hrange : l.range? read = none)
    {r' : Resolution} (hreads : r'.reads = r.reads.insert l.file) (hsome : r'.failure ≠ none) :
    Account read (seen ++ [l]) r' := by
  have hfails : l.fails read = true := by simp [Location.fails, hl, hrange]
  refine ⟨iff_of_false hsome fun hall => ?_, h.reads_concat hfailure hl hreads,
    fun hnone => absurd hnone hsome⟩
  cases hfails.symm.trans (hall l (by simp))

end

/-- **One location.** It is resolved as if it were the only one. -/
theorem location (l : Location) :
    Account read (seen ++ [l]) (r.location read l).1 ∧
      ((r.location read l).1.failure = none → (r.location read l).2 = l.settled read) := by
  by_cases hfailure : r.failure = none
  · cases hl : l.isAddressed with
    | false =>
        rw [location_of_not_isAddressed hl]
        exact ⟨h.plain hfailure hl, fun _ => (Location.settled_of_not_isAddressed hl).symm⟩
    | true =>
        have hempty : l.address.isEmpty = false := by simpa [Location.isAddressed] using hl
        have hkeeps := h.keeps hfailure
        unfold Resolution.location
        rw [if_neg (by simp [hempty, hfailure])]
        cases hread : read l.file with
        | error reason =>
            rw [hkeeps.textOf_of_error hread]
            have hrange : l.range? read = none := by simp [Location.range?, hread]
            exact ⟨h.failed hfailure hl hrange rfl (by simp), nofun⟩
        | ok t =>
            obtain ⟨r', htext, hkeeps', hreads, hfailure'⟩ := hkeeps.textOf_of_ok hread
            rw [htext]
            dsimp only
            cases heval : Address.eval l.address 0 t with
            | ok range =>
                have hrange : l.range? read = some range :=
                  Location.range?_eq_some_iff.mpr ⟨t, hread, heval⟩
                have hnext :=
                  h.resolved hfailure hl (by simp [hrange]) hreads
                    (hfailure'.trans hfailure) hkeeps'
                exact ⟨hnext, fun _ => (Location.settled_of_range? hl hrange).symm⟩
            | error e =>
                have hrange : l.range? read = none := by
                  simp [Location.range?, hread, heval, Except.toOption]
                cases e with
                | cause e => exact ⟨h.failed hfailure hl hrange hreads (by simp), nofun⟩
                | absent => exact ⟨h.failed hfailure hl hrange hreads (by simp), nofun⟩
  · have hsome : r.failure.isSome = true := Option.isSome_iff_ne_none.mpr hfailure
    have hsame : r.location read l = (r, l) := by simp [Resolution.location, hsome]
    rw [hsame]
    exact ⟨h.behind hfailure l, fun hnone => absurd hnone hfailure⟩

/-- The account is kept by a location that may be missing. -/
theorem location? (l : Option Location) :
    Account read (seen ++ l.toList) (r.location? read l).1 ∧
      ((r.location? read l).1.failure = none →
        (r.location? read l).2 = l.map (Location.settled read)) := by
  cases l with
  | none =>
      rw [Option.toList_none, List.append_nil]
      exact ⟨h, fun _ => rfl⟩
  | some l =>
      obtain ⟨hnext, hsettled⟩ := h.location l
      exact ⟨hnext, fun hnone => congrArg some (hsettled hnone)⟩

end Account

/-! ## The tree -/

theorem node_eq (read : Reader) (r : Resolution) (n : Node) :
    node read r n =
      ((nodes read
        (((r.location? read n.begin).1.location? read n.loc).1.location? read n.typeLoc).1
        n.inner).1,
        { n with
          begin := (r.location? read n.begin).2
          loc := ((r.location? read n.begin).1.location? read n.loc).2
          typeLoc :=
            (((r.location? read n.begin).1.location? read n.loc).1.location? read n.typeLoc).2
          inner :=
            (nodes read
              (((r.location? read n.begin).1.location? read n.loc).1.location? read n.typeLoc).1
              n.inner).2 }) := by
  cases n
  rfl

/-- **The tree.** All locations are resolved in preorder, and nothing else changes. -/
theorem account_nodes (children : List (Option Node)) (h : Account read seen r) :
    Account read (seen ++ Node.allLocationsOf children) (nodes read r children).1 ∧
      ((nodes read r children).1.failure = none →
        (nodes read r children).2 = Node.mapLocationsOf (Location.settled read) children) := by
  induction children using Node.children_induction (P := fun n => ∀ {seen r}, Account read seen r →
    Account read (seen ++ n.allLocations) (node read r n).1 ∧
      ((node read r n).1.failure = none →
        (node read r n).2 = n.mapLocations (Location.settled read)))
    generalizing seen r with
  | node n hchildren h =>
      obtain ⟨hbegin, hbegin'⟩ := h.location? n.begin
      obtain ⟨hloc, hloc'⟩ := hbegin.location? n.loc
      obtain ⟨htypeLoc, htypeLoc'⟩ := hloc.location? n.typeLoc
      obtain ⟨hinner, hinner'⟩ := hchildren htypeLoc
      rw [node_eq, Node.mapLocations_eq, Node.allLocations_eq, Node.locations_eq]
      refine ⟨by simpa only [List.append_assoc] using hinner, fun hnone => ?_⟩
      -- There was no failure before if there is none in the end.
      have hnone₃ := htypeLoc.failure_eq_none_of_append hinner hnone
      have hnone₂ := hloc.failure_eq_none_of_append htypeLoc hnone₃
      have hnone₁ := hbegin.failure_eq_none_of_append hloc hnone₂
      dsimp only
      rw [hbegin' hnone₁, hloc' hnone₂, htypeLoc' hnone₃, hinner' hnone]
  | nil =>
      rw [Node.allLocationsOf, List.append_nil]
      exact ⟨h, fun _ => rfl⟩
  | gap rest hrest =>
      obtain ⟨hlater, hlater'⟩ := hrest h
      exact ⟨hlater, fun hnone => congrArg (none :: ·) (hlater' hnone)⟩
  | cons n rest hn hrest =>
      obtain ⟨hnode, hnode'⟩ := hn h
      obtain ⟨hlater, hlater'⟩ := hrest hnode
      rw [nodes, Node.allLocationsOf, ← List.append_assoc, Node.mapLocationsOf]
      refine ⟨hlater, fun hnone => ?_⟩
      dsimp only
      rw [hnode' (hnode.failure_eq_none_of_append hlater hnone), hlater' hnone]

/-- A location that is missing or has no address needs no file. -/
theorem location?_of_not_isAddressed {l : Option Location} (hl : ∀ l' ∈ l, l'.isAddressed = false) :
    r.location? read l = (r, l) := by
  cases l with
  | none => rfl
  | some l => simp [location?, location_of_not_isAddressed (hl l rfl)]

/-- Without addresses there is nothing to do. -/
theorem nodes_of_not_isAddressed {children : List (Option Node)}
    (h : ∀ l ∈ Node.allLocationsOf children, l.isAddressed = false) :
    nodes read r children = (r, children) := by
  induction children using Node.children_induction
    (P := fun n => (∀ l ∈ n.allLocations, l.isAddressed = false) → node read r n = (r, n)) with
  | node n hinner h =>
      rw [Node.allLocations_eq, Node.locations_eq] at h
      simp only [List.mem_append, Option.mem_toList] at h
      have hbegin : r.location? read n.begin = (r, n.begin) :=
        location?_of_not_isAddressed fun l hl => h l (Or.inl (Or.inl (Or.inl hl)))
      have hloc : r.location? read n.loc = (r, n.loc) :=
        location?_of_not_isAddressed fun l hl => h l (Or.inl (Or.inl (Or.inr hl)))
      have htypeLoc : r.location? read n.typeLoc = (r, n.typeLoc) :=
        location?_of_not_isAddressed fun l hl => h l (Or.inl (Or.inr hl))
      simp only [node_eq, hbegin, hloc, htypeLoc, hinner fun l hl => h l (Or.inr hl)]
      cases n
      rfl
  | nil => rfl
  | gap rest hrest => rw [nodes, hrest h]
  | cons n rest hn hrest =>
      rw [Node.allLocationsOf, List.forall_mem_append] at h
      rw [nodes, hn h.1]
      dsimp only
      rw [hrest h.2]

end Resolution

/-! ## Units -/

namespace CompilationUnit

variable (read : Resolution.Reader) (u : CompilationUnit)

/-- Resolving a unit is accounted for by all its locations. -/
theorem account_resolve : Resolution.Account read u.locations (u.resolve read).1 := by
  rw [locations_eq]
  exact (Resolution.account_nodes u.inner Resolution.account_nil).1

/-- When nothing fails, each location of the unit is settled and nothing else is changed. -/
theorem resolve_eq_mapLocations (h : (u.resolve read).1.failure = none) :
    (u.resolve read).2 = u.mapLocations (Location.settled read) :=
  congrArg (fun inner => { u with inner })
    ((Resolution.account_nodes u.inner Resolution.account_nil).2 h)

/-- A unit without addresses stays as it is, and no file is read. -/
theorem resolve_of_not_isAddressed (h : ∀ l ∈ u.locations, l.isAddressed = false) :
    u.resolve read = ({}, u) := by
  rw [locations_eq] at h
  simp only [resolve, Resolution.nodes_of_not_isAddressed h]

/-- **Resolving.** The names read are different from each other: they are the files of the locations
with an address, each where it comes first, up to the first location that cannot be resolved. There
is no failure if and only if all of them can be. Then each location with an address has got the
start of the range that it denotes in the text of its file, which is an offset in that text, no
location has an address any more, and everything else is as it was. Resolving once more, with any
reader, reads nothing and changes nothing. -/
theorem resolve_settles_addresses :
    (u.resolve read).1.reads.Nodup ∧
    (u.resolve read).1.reads.reverse = (Resolution.filesAsked read u.locations).eraseDups ∧
    ((u.resolve read).1.failure = none ↔ ∀ l ∈ u.locations, l.fails read = false) ∧
    ((u.resolve read).1.failure = none →
      (∃ settle : Location → Location, (u.resolve read).2 = u.mapLocations settle ∧
        (∀ l ∈ u.locations, l.address = [] → settle l = l) ∧
        ∀ l ∈ u.locations, l.address ≠ [] → ∃ t range, read l.file = .ok t ∧
          Address.eval l.address 0 t = .ok range ∧ 0 ≤ range.lo ∧ range.lo ≤ t.length ∧
          settle l = { l with offset := Int64.ofInt range.lo, address := [] } ∧
          (t.length < 2 ^ 63 → (settle l).offset.toInt = range.lo)) ∧
      (∀ l ∈ (u.resolve read).2.locations, l.address = []) ∧
      ∀ other : Resolution.Reader, (u.resolve read).2.resolve other
        = ({}, (u.resolve read).2)) := by
  have haccount := u.account_resolve read
  refine ⟨?_, haccount.reads_eq, haccount.failure_iff, fun hnone => ?_⟩
  · rw [← List.nodup_reverse, haccount.reads_eq]
    exact nodup_eraseDups _
  have hmap := u.resolve_eq_mapLocations read hnone
  have hplain : ∀ l ∈ (u.resolve read).2.locations, l.isAddressed = false := by
    rw [hmap, locations_mapLocations]
    intro l' hl'
    obtain ⟨l, hl, rfl⟩ := List.mem_map.mp hl'
    exact Location.isAddressed_settled (haccount.failure_iff.mp hnone l hl)
  refine ⟨⟨_, hmap, fun l _ hempty => ?_, fun l hl hne => ?_⟩, fun l hl => ?_, fun other => ?_⟩
  · exact Location.settled_of_not_isAddressed (Location.isAddressed_eq_false_iff.mpr hempty)
  · have haddressed : l.isAddressed = true := by simpa [Location.isAddressed] using hne
    obtain ⟨range, hrange⟩ := Location.exists_range? haddressed (haccount.failure_iff.mp hnone l hl)
    obtain ⟨t, hread, heval⟩ := Location.range?_eq_some_iff.mp hrange
    have hin := Address.inText_of_eval (Int.le_refl 0) (Int.natCast_nonneg _) heval
    have hsettled := Location.settled_of_range? haddressed hrange
    refine ⟨t, range, hread, heval, hin.lo_nonneg, hin.lo_le, hsettled, fun hlength => ?_⟩
    have hlo := hin.lo_nonneg
    have hle := hin.lo_le
    rw [hsettled]
    exact Int64.toInt_ofInt_of_le (by omega) (by omega)
  · exact Location.isAddressed_eq_false_iff.mp (hplain l hl)
  · exact resolve_of_not_isAddressed other _ hplain

end CompilationUnit

end PointerMigration
