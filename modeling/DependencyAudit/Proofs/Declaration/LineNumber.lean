import DependencyAudit.Declaration.File
import DependencyAudit.Proofs.Declaration.Place
import DependencyAudit.Proofs.Declaration.Quotes
import DependencyAudit.Proofs.Files.Reading
import DependencyAudit.Proofs.Text.Newlines

/-!
Numbers of lines against places in a file. Each declaration of a script has a place of its own in
the file, where its literal stands in quotes, and its number counts the ends of lines before that
place. These are newlines, which everyone counts, and separators, which other readers of the file
take for characters like any other.
-/
namespace DependencyAudit
open Text

/-- The same span behind so many more characters. -/
def Text.Span.shift {α : Type} (n : Nat) (x : Span α) : Span α := ⟨x.start + n, x.stop + n, x.value⟩

section Moving
variable {family : Kind} {s front more : List Char} {x : Span Coordinate}

theorem DeclaredIn.append (h : DeclaredIn family s x) (more : List Char) :
    DeclaredIn family (s ++ more) x := by
  obtain ⟨before, text, after, split, place⟩ := h
  exact ⟨before, text, after ++ more, by rw [split, List.append_assoc], place⟩

theorem DeclaredIn.shift (h : DeclaredIn family s x)
    (boundary : ∀ c, front.getLast? = some c → isWord c = false ∧ c ≠ '.') :
    DeclaredIn family (front ++ s) (x.shift front.length) := by
  obtain ⟨before, text, after, split, start, stop, boundary', written⟩ := h
  refine ⟨front ++ before, text, after, by simp [split], ?_, ?_, ?_, written⟩
  · simp only [Span.shift, start, List.length_append, Nat.add_comm]
  · simp only [Span.shift, stop, List.length_append]
    omega
  · intro c hc
    rw [List.getLast?_append, Option.or_eq_some_iff] at hc
    obtain here | ⟨-, before⟩ := hc
    · exact boundary' c here
    · exact boundary c before

theorem DeclaredIn.opening_shift (h : DeclaredIn family s x) (n : Nat) :
    (x.shift n).opening = x.opening + n := by
  obtain ⟨_, _, _, literal, _, parts⟩ := h.exists_parts
  have stop := parts.stop
  rw [parts.literal.length_eq] at stop
  simp only [Span.opening, Span.shift] at stop ⊢
  omega

theorem DeclaredIn.opening_lt (h : DeclaredIn family s x) : x.opening < s.length := by
  obtain ⟨-, quote, -⟩ := h.quotes
  exact (List.mem_findIdxs_iff_exists_getElem_pos.1 quote).1

end Moving

/-- Where a declaration stands in a text whose first line has a given number. -/
structure StandsAt (text : List Char) (first : Int) (d : Declaration)
    (site : Kind × Span Coordinate) : Prop where
  declared : DeclaredIn site.1 text site.2
  coordinate : site.2.value = d.coordinate
  line : d.line = first + newlines (text.take site.2.opening) +
    separators (text.take site.2.opening)

section Sites
variable {line ending rest text more : List Char} {first : Int} {d : Declaration}
  {site : Kind × Span Coordinate}

theorem StandsAt.append (h : StandsAt text first d site) (more : List Char) :
    StandsAt (text ++ more) first d site where
  declared := h.declared.append more
  coordinate := h.coordinate
  line := by
    rw [List.take_append_of_le_length (Nat.le_of_lt h.declared.opening_lt)]
    exact h.line

/-- A line more before a text is an end of a line more before its declarations. -/
theorem StandsAt.shift (h : StandsAt rest (first + 1) d site)
    (inside : ∀ c ∈ line, isLineEnd c = false) (ends : Ending ending rest) :
    StandsAt (line ++ ending ++ rest) first d (site.1, site.2.shift (line ++ ending).length) where
  declared := by
    refine h.declared.shift fun c hc => ?_
    have last := ends.isLineEnd c
    rw [List.getLast?_append, Option.or_eq_some_iff] at hc
    have ended : isLineEnd c = true := by
      obtain here | ⟨nothing, -⟩ := hc
      · exact last here
      · cases ends <;> cases nothing
    refine ⟨not_isWord_of_isBlank (isBlank_of_isLineEnd ended), ?_⟩
    rintro rfl
    cases ended
  coordinate := h.coordinate
  line := by
    have counted := ends.counted (List.take_prefix site.2.opening rest)
    have nothing := separators_of_inside inside
    have split : (line ++ ending ++ rest).take (site.2.shift (line ++ ending).length).opening =
        line ++ (ending ++ rest.take site.2.opening) := by
      rw [h.declared.opening_shift, Nat.add_comm, List.take_length_add_append, List.append_assoc]
    rw [split, newlines_append_of_inside inside, separators, List.countP_append, h.line]
    rw [separators] at nothing counted
    rw [nothing]
    have := h.line
    simp only [separators] at counted this ⊢
    omega

theorem forall_declaredIn {ds : List Declaration} {sites : List (Kind × Span Coordinate)}
    (h : List.Forall₂ (StandsAt text first) ds sites) : ∀ s ∈ sites, DeclaredIn s.1 text s.2 := by
  have both : List.Forall₂ (fun s d => DeclaredIn s.1 text s.2 ∧ StandsAt text first d s) sites ds :=
    h.flip.imp fun s d stands => ⟨stands.declared, stands⟩
  exact ((List.forall₂_and_left sites ds).1 both).1

/-- On one line no end of a line is counted. -/
theorem exists_sites_of_line (inside : ∀ c ∈ line, isLineEnd c = false) (first : Int) :
    ∃ sites, List.Forall₂ (StandsAt line first) (Declaration.ofLine first (String.ofList line))
      sites ∧ (sites.map (·.2.opening)).Nodup := by
  obtain ⟨spans, hspans⟩ := Classical.skolem.1 fun family => exists_leftmost_occurrences family line
  have leftmost family := (hspans family).2
  have same := onLine_eq_sitesOf first line fun family => (hspans family).1
  have paired : List.Forall₂ Eq _ _ := List.forall₂_eq_eq_eq ▸ same
  rw [List.forall₂_map_left_iff, List.forall₂_map_right_iff] at paired
  refine ⟨sitesOf spans, ?_, nodup_openings leftmost⟩
  rw [Declaration.ofLine, String.toList_ofList, List.forall₂_map_left_iff]
  rw [List.forall₂_iff_zip] at paired ⊢
  refine ⟨paired.1, fun {found site} both => ?_⟩
  obtain ⟨hfound, hsite⟩ := List.of_mem_zip both
  have before : ∀ c ∈ line.take site.2.opening, isLineEnd c = false := fun c hc =>
    inside c (List.mem_of_mem_take hc)
  have nothing := newlines_append_of_inside before []
  rw [List.append_nil] at nothing
  have member : found.2 ∈ Declaration.ofLine first (String.ofList line) :=
    List.mem_map.2 ⟨found, by rwa [String.toList_ofList], rfl⟩
  have number : found.2.line = first := Declaration.line_of_mem_ofLine member
  refine ⟨declaredIn_of_mem_sitesOf leftmost site hsite, (Prod.mk.inj (paired.2 both)).2.symm, ?_⟩
  rw [number, nothing, separators_of_inside before]
  simp [newlines]

/-- The declarations of a text in a row, each at a place of its own. The induction is on what
follows the first line. -/
theorem exists_sites (first : Int) (text : List Char) :
    ∃ sites, List.Forall₂ (StandsAt text first)
      (Declaration.ofLinesFrom first ((splitLines text).map String.ofList)) sites ∧
      (sites.map (·.2.opening)).Nodup := by
  obtain inside | ⟨line, ending, rest, split, inside, ends⟩ := line_or_ended text
  · cases text with
    | nil => exact ⟨[], .nil, List.nodup_nil⟩
    | cons c text =>
        rw [splitLines_eq_singleton (List.cons_ne_nil c text) inside, List.map_singleton,
          Declaration.ofLinesFrom_cons]
        have nothing : Declaration.ofLinesFrom (first + 1) [] = [] := rfl
        rw [nothing, List.append_nil]
        exact exists_sites_of_line inside first
  · have shorter : rest.length < text.length := by
      rw [split, List.length_append, List.length_append]
      cases ends <;> simp
    obtain ⟨sites, here, distinct⟩ := exists_sites_of_line inside first
    obtain ⟨others, there, distinct'⟩ := exists_sites (first + 1) rest
    subst split
    rw [splitLines_append_of_inside inside ends, List.map_cons, Declaration.ofLinesFrom_cons]
    refine ⟨sites ++ others.map fun s => (s.1, s.2.shift (line ++ ending).length), ?_, ?_⟩
    · refine List.rel_append ?_ ?_
      · refine here.imp fun d site stands => ?_
        rw [List.append_assoc]
        exact stands.append (ending ++ rest)
      · rw [List.forall₂_map_right_iff]
        exact there.imp fun d site stands => stands.shift inside ends
    · have standing := forall_declaredIn here
      have standing' := forall_declaredIn there
      have moved : (others.map fun s => (s.1, s.2.shift (line ++ ending).length)).map
          (·.2.opening) = (others.map (·.2.opening)).map (· + (line ++ ending).length) := by
        rw [List.map_map, List.map_map]
        exact List.map_congr_left fun s hs => (standing' s hs).opening_shift _
      rw [List.map_append, moved, List.nodup_append]
      refine ⟨distinct, distinct'.map (add_left_injective _), ?_⟩
      intro o ho o' ho' same
      obtain ⟨s, hs, rfl⟩ := List.mem_map.1 ho
      obtain ⟨o', -, rfl⟩ := List.mem_map.1 ho'
      have := (standing s hs).opening_lt
      rw [List.length_append] at same
      omega
termination_by text.length

end Sites

namespace FileTree
variable {tree : FileTree} {env : Environment} {p : Path} {bytes : List UInt8} {text : List Char}

theorem readScript_of_file (file : tree.read env p = .ok bytes)
    (decoded : Utf8.decode bytes = .ok text) :
    tree.readScript env p = .ok ((splitLines text).map String.ofList) := by
  obtain ⟨place, led, node⟩ := read_eq_ok_iff.1 file
  have found : tree.find env p = .ok (some (.file bytes)) := by
    rw [find, led]
    exact congrArg Except.ok node
  have read : tree.readText env p = .ok (unifyNewlines text) := by
    rw [readText, file]
    simp only [Except.mapError, bind, Except.bind, decoded]
    rfl
  rw [readScript, found, read]
  exact congrArg (fun lines => Except.ok (lines.map String.ofList)) (splitLines_unifyNewlines text)

/-- Every declaration of a file has a place of its own in it, where its literal stands in quotes.
Its number is one more than the newlines before that place, and one more again for each separator
there; so it is the number of the file's own line exactly if there are none, and the lines that
are numbered are the file's own exactly if no separator is in it. -/
theorem readScript_places (file : tree.read env p = .ok bytes)
    (decoded : Utf8.decode bytes = .ok text) :
    ∃ (lines : List String) (sites : List (Kind × Span Coordinate)),
      tree.readScript env p = .ok lines ∧
      List.Forall₂ (fun (d : Declaration) (site : Kind × Span Coordinate) =>
          DeclaredIn site.1 text site.2 ∧ site.2.value = d.coordinate ∧
          d.line = 1 + newlines (text.take site.2.opening) +
            separators (text.take site.2.opening) ∧
          (d.line = 1 + newlines (text.take site.2.opening) ↔
            ∀ c ∈ text.take site.2.opening, isSeparator c = false))
        (Declaration.ofLines lines) sites ∧
      (sites.map (·.2.opening)).Nodup ∧
      (lines = (newlineLines text).map String.ofList ↔ ∀ c ∈ text, isSeparator c = false) := by
  obtain ⟨sites, stand, distinct⟩ := exists_sites 1 text
  refine ⟨_, sites, readScript_of_file file decoded, stand.imp fun d site stands => ?_, distinct, ?_⟩
  · refine ⟨stands.declared, stands.coordinate, stands.line, ?_⟩
    rw [← separators_eq_zero_iff, stands.line]
    omega
  · rw [← splitLines_eq_newlineLines_iff]
    exact (List.map_injective_iff.2 fun _ _ => String.ofList_injective).eq_iff

/-- A file of ASCII characters in a directory. -/
def holding (text : List Char) : FileTree :=
  [(["work"], .directory),
    (["work", "build.gradle"], .file (text.map fun c => UInt8.ofNat c.toNat))]

/-- Newlines of all three sorts, and a declaration behind them. -/
theorem readScript_places_of_mixed :
    let text := "// a\r\n// b\r\napi 'g:a:1'\r".toList
    ∃ (lines : List String) (d : Declaration) (site : Kind × Span Coordinate),
      (holding text).readScript { directory := ["work"] } ⟨"", ["build.gradle"]⟩ = .ok lines ∧
      Declaration.ofLines lines = [d] ∧ DeclaredIn site.1 text site.2 ∧ d.line = 3 ∧
      d.line = 1 + newlines (text.take site.2.opening) := by
  intro text
  have own : ∀ c ∈ text, isSeparator c = false := by decide +kernel
  have file : (holding text).read { directory := ["work"] } ⟨"", ["build.gradle"]⟩ =
      .ok (text.map fun c => UInt8.ofNat c.toNat) := by decide +kernel
  have decoded : Utf8.decode (text.map fun c => UInt8.ofNat c.toNat) = .ok text := by
    decide +kernel
  obtain ⟨lines, sites, read, stand, -, newline⟩ := readScript_places file decoded
  have declared : Declaration.ofLines ((newlineLines text).map String.ofList) =
      [⟨⟨"g", "a", "1"⟩, 3, "api 'g:a:1'", .api⟩] := by decide +kernel
  rw [newline.2 own, declared] at stand
  cases stand with
  | @cons _ site _ _ stands =>
      refine ⟨lines, _, site, read, newline.2 own ▸ declared, stands.1, rfl, ?_⟩
      exact stands.2.2.2.2 fun c hc => own c (List.mem_of_mem_take hc)

/-- A form feed ends a line for the numbers, and none in the file. -/
theorem line_behind_separator :
    let text := "// a\x0c\napi 'g:a:1'\n".toList
    let env : Environment := { directory := ["work"] }
    ∃ lines, (holding text).readScript env ⟨"", ["build.gradle"]⟩ = .ok lines ∧
      (Declaration.ofLines lines).map (·.line) = [3] ∧
      text.drop 10 = "'g:a:1'\n".toList ∧ 1 + newlines (text.take 10) = 2 ∧
      newlineLines text = ["// a\x0c".toList, "api 'g:a:1'".toList] := by
  intro text env
  exact ⟨["// a", "", "api 'g:a:1'"], by decide +kernel⟩

end FileTree
end DependencyAudit
