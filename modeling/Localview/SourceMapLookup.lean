import Localview.SourceMapDecoding
import Localview.SortedLookup

/-! # Looking up positions in a source map

A map that parses has the segments of a line in column order, so that `resolve` ends at the
last segment of the greatest column that is not above the requested one
(`SourceMap.resolvesNearest`).  A column may be repeated, and `resolve_exact` ends at its
first segment: the lookups agree exactly where the first and the last segment of a column
lead to the same place (`RepeatsAgree`).
-/
namespace Localview
open SortedLookup List Option MappingSegment

namespace SourceMap
variable {map : SourceMap} {line column : Nat} {segments : List MappingSegment}
  {segment : MappingSegment}

theorem resolve_of_segmentsOf (hsegments : map.segmentsOf line = some segments)
    (hsorted : Ascending generatedColumn segments)
    (h : IsNearest generatedColumn segments column segment) :
    map.resolve line column = map.resolveSegment segment := by
  have htaken := (getLast?_takeWhile_eq_some hsorted).mpr h
  unfold resolve
  rw [hsegments, bind_eq_bind, bind_some, htaken]
  rfl

theorem resolveExact_of_segmentsOf (hsegments : map.segmentsOf line = some segments)
    (h : IsFirstAt generatedColumn segments segment) :
    map.resolveExact line segment.generatedColumn = map.resolveSegment segment := by
  have hfound := find?_eq_some.mpr ⟨rfl, h⟩
  unfold resolveExact
  rw [hsegments, bind_eq_bind, bind_some, hfound]
  rfl

theorem mem_lines_of_segmentsOf (h : map.segmentsOf line = some segments) :
    segments ∈ map.lines := by
  unfold segmentsOf at h
  split_ifs at h
  exact mem_of_getElem? h

theorem exists_segmentsOf (h : segments ∈ map.lines) :
    ∃ line, map.segmentsOf line = some segments := by
  obtain ⟨i, hi⟩ := getElem?_of_mem h
  refine ⟨i + 1, ?_⟩
  unfold segmentsOf
  rw [if_neg (Nat.succ_ne_zero i), Nat.add_sub_cancel]
  exact hi

/-- A segment resolves if and only if it has an original position. -/
theorem resolveSegment_isSome (h : segment.InRange map.sources.length map.names.length) :
    (map.resolveSegment segment).isSome = segment.original.isSome := by
  unfold resolveSegment
  cases horiginal : segment.original with
  | none => rfl
  | some original =>
    have hlt := (h original horiginal).1
    rw [bind_eq_bind, bind_some, getElem?_eq_getElem hlt]
    rfl

/-- `resolve` gives the mapping of the nearest segment, and nothing where there is none. -/
def ResolvesNearest (map : SourceMap) : Prop :=
  ∀ line column,
    (∀ segments segment, map.segmentsOf line = some segments →
      IsNearest generatedColumn segments column segment →
      map.resolve line column = map.resolveSegment segment) ∧
    ((∀ segments, map.segmentsOf line = some segments →
      ∀ segment ∈ segments, column < segment.generatedColumn) →
      map.resolve line column = none)

/-- What `resolve_exact` gives, `resolve` gives. -/
def LookupsAgree (map : SourceMap) : Prop :=
  ∀ line column location,
    map.resolveExact line column = some location → map.resolve line column = some location

/-- The first segment of a column, if it has an original position, leads where the last
one does. -/
def RepeatsAgree (map : SourceMap) : Prop :=
  ∀ segments ∈ map.lines, ∀ first last,
    IsFirstAt generatedColumn segments first →
    IsLastAt generatedColumn segments last →
    first.generatedColumn = last.generatedColumn → first.original.isSome →
    map.resolveSegment first = map.resolveSegment last

theorem resolvesNearest (h : map.WellFormed) : map.ResolvesNearest := by
  intro line column
  constructor
  · intro segments segment hsegments hnearest
    exact resolve_of_segmentsOf hsegments (h.sorted segments (mem_lines_of_segmentsOf hsegments))
      hnearest
  · intro hnone
    unfold resolve
    cases hsegments : map.segmentsOf line with
    | none => rfl
    | some segments =>
      have hsorted := h.sorted segments (mem_lines_of_segmentsOf hsegments)
      have htaken := (getLast?_takeWhile_eq_none hsorted).mpr (hnone segments hsegments)
      rw [bind_eq_bind, bind_some, htaken]
      rfl

/-- Where a line has a segment at a column, `resolve` goes by the last one at it. -/
theorem resolve_at_last (h : map.WellFormed) (hsegments : map.segmentsOf line = some segments)
    (hsegment : segment ∈ segments) :
    ∃ last, IsLastAt generatedColumn segments last ∧
      last.generatedColumn = segment.generatedColumn ∧
      map.resolve line segment.generatedColumn = map.resolveSegment last := by
  have hsorted := h.sorted segments (mem_lines_of_segmentsOf hsegments)
  cases hlast : (segments.takeWhile fun s =>
      s.generatedColumn ≤ segment.generatedColumn).getLast? with
  | none =>
    have habove := (getLast?_takeWhile_eq_none hsorted).mp hlast segment hsegment
    omega
  | some last =>
    have hnearest := (getLast?_takeWhile_eq_some hsorted).mp hlast
    obtain ⟨heq, hisLast⟩ := hnearest.isLastAt hsegment rfl
    exact ⟨last, hisLast, heq, resolve_of_segmentsOf hsegments hsorted hnearest⟩

theorem lookupsAgree_iff (h : map.WellFormed) : map.LookupsAgree ↔ map.RepeatsAgree := by
  constructor
  · intro hagree segments hmem first last hfirst hlast hcolumns hsome
    obtain ⟨line, hsegments⟩ := exists_segmentsOf hmem
    have hexact := resolveExact_of_segmentsOf hsegments hfirst
    have hresolves := resolveSegment_isSome (h.inRange segments hmem first hfirst.mem)
    rw [hsome] at hresolves
    obtain ⟨location, hlocation⟩ := Option.isSome_iff_exists.mp hresolves
    rw [hlocation] at hexact
    have hresolve := hagree line first.generatedColumn location hexact
    rw [hcolumns, resolve_of_segmentsOf hsegments (h.sorted segments hmem)
      (hlast.isNearest (h.sorted segments hmem))] at hresolve
    rw [hlocation, hresolve]
  · intro hrepeats line column location hexact
    unfold resolveExact at hexact
    cases hsegments : map.segmentsOf line with
    | none =>
      rw [hsegments] at hexact
      cases hexact
    | some segments =>
      rw [hsegments, bind_eq_bind, bind_some, bind_eq_bind,
        bind_eq_some_iff] at hexact
      obtain ⟨first, hfound, hlocation⟩ := hexact
      obtain ⟨hcolumn, hfirst⟩ := find?_eq_some.mp hfound
      subst hcolumn
      have hmem := mem_lines_of_segmentsOf hsegments
      have hsome : first.original.isSome := by
        rw [← resolveSegment_isSome (h.inRange segments hmem first hfirst.mem), hlocation]
        rfl
      obtain ⟨last, hlast, hcolumns, hresolve⟩ := resolve_at_last h hsegments hfirst.mem
      rw [hresolve, ← hlocation]
      exact (hrepeats segments hmem first last hfirst hlast hcolumns.symm hsome).symm

end SourceMap

/-- In a map that parses, `resolve` gives the mapping of the last segment of the greatest
column that is not above the requested one; what `resolve_exact` gives is given by `resolve`
too if and only if no column is repeated with segments that lead elsewhere. -/
theorem source_map_lookup {fromStr : String → Option RawSourceMap} {json : String} {map : SourceMap}
    (h : SourceMap.parse fromStr json = .ok map) :
    map.ResolvesNearest ∧ (map.LookupsAgree ↔ map.RepeatsAgree) :=
  ⟨SourceMap.resolvesNearest (SourceMap.wellFormed_of_parse h),
    SourceMap.lookupsAgree_iff (SourceMap.wellFormed_of_parse h)⟩

/-- Two lines of the source at one column of the generated line. -/
def repeatedColumn : RawSourceMap := ⟨3, none, ["a.ts"], [], "AAAA,AACA", none⟩

def repeatedColumnMap : SourceMap :=
  { sources := ["a.ts"], names := []
    lines := [[⟨0, some ⟨0, 1, 0, none⟩⟩, ⟨0, some ⟨0, 2, 0, none⟩⟩]] }

theorem parse_repeatedColumn :
    SourceMap.parse (fun _ => some repeatedColumn) "" = .ok repeatedColumnMap := by
  decide +kernel

theorem source_map_lookup_repeatedColumn :
    repeatedColumnMap.ResolvesNearest ∧
      (repeatedColumnMap.LookupsAgree ↔ repeatedColumnMap.RepeatsAgree) :=
  source_map_lookup parse_repeatedColumn

/-- There `resolve_exact` gives the first line and `resolve` the second. -/
theorem lookups_disagree :
    ¬∀ (fromStr : String → Option RawSourceMap) (json : String) (map : SourceMap),
      SourceMap.parse fromStr json = .ok map → map.LookupsAgree := by
  intro hall
  have hagree := hall _ "" _ parse_repeatedColumn 1 0 ⟨"a.ts", 1, 0, none⟩ (by decide +kernel)
  revert hagree
  decide +kernel

end Localview
