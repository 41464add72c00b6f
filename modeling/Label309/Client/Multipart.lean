import Label309.Client.Http
import Label309.Lib.Delimited
import Label309.Lib.ExceptBind

/-!
# Multipart bodies

The fields of a form are written one after the other between lines of a fixed boundary, their
values as they are. A receiver looks for the boundary of the content type at the beginning of every
line. It finds the fields again exactly when no value has a line that begins with the boundary.
-/
namespace Label309
open Delimited

/-! ## The body -/

def multipartBoundary : String := "label309sdkrsboundaryV1aaaaaaaaaa"

def crlf : List UInt8 := [13, 10]

def encodeField (field : MultipartField) : List UInt8 :=
  utf8Bytes "--" ++ utf8Bytes multipartBoundary ++ crlf ++
    utf8Bytes "Content-Disposition: form-data; name=\"" ++ utf8Bytes field.name ++
    utf8Bytes "\"" ++
    field.filename.elim [] (fun filename =>
      utf8Bytes "; filename=\"" ++ utf8Bytes filename ++ utf8Bytes "\"") ++
    crlf ++
    field.contentType.elim [] (fun ct => utf8Bytes "Content-Type: " ++ utf8Bytes ct ++ crlf) ++
    crlf ++ field.value ++ crlf

def encodeMultipart (fields : List MultipartField) : List UInt8 :=
  fields.flatMap encodeField ++ utf8Bytes "--" ++ utf8Bytes multipartBoundary ++
    utf8Bytes "--" ++ crlf

/-- What a request carries as text, and as bytes under a content type of its own. -/
def RequestBody.carried : RequestBody → Option String × Option (List UInt8 × String)
  | .none => (.none, .none)
  | .json text => (some text, .none)
  | .multipart fields =>
      (.none, some (encodeMultipart fields, "multipart/form-data; boundary=" ++ multipartBoundary))
  | .bytes b => (.none, some (b, "application/octet-stream"))

/-! ## The receiver -/

namespace Multipart

/-- The lines before the first empty one, and what comes after it. -/
def headerLines : (fuel : ℕ) → List UInt8 → Option (List (List UInt8) × List UInt8)
  | 0, _ => none
  | fuel + 1, s => do
      let (line, s) ← s.dropInfix? crlf
      if line = [] then some ([], s)
      else
        let (lines, value) ← headerLines fuel s
        some (line :: lines, value)

/-- The parameters of a header, each with its value between quotes. -/
def params : (fuel : ℕ) → List UInt8 → Option (List (List UInt8 × List UInt8))
  | _, [] => some []
  | 0, _ => none
  | fuel + 1, s => do
      let s ← s.dropPrefix? (utf8Bytes "; ")
      let (key, s) ← s.dropInfix? (utf8Bytes "=\"")
      let (value, s) ← s.dropInfix? (utf8Bytes "\"")
      let rest ← params fuel s
      some ((key, value) :: rest)

def headerValue (name : String) (lines : List (List UInt8)) : Option (List UInt8) :=
  lines.findSome? fun line => line.dropPrefix? (utf8Bytes name ++ utf8Bytes ": ")

/-- A field of a form: the parameters of its disposition, its content type and its value. -/
def readPart (content : List UInt8) : Option MultipartField := do
  let (lines, value) ← headerLines content.length content
  let disposition ← headerValue "Content-Disposition" lines
  let written ← disposition.dropPrefix? (utf8Bytes "form-data")
  let params ← params written.length written
  let name ← (params.lookup (utf8Bytes "name")).bind fromUtf8
  some
    { name
      filename := (params.lookup (utf8Bytes "filename")).bind fromUtf8
      contentType := (headerValue "Content-Type" lines).bind fromUtf8
      value }

/-- The contents between the boundary lines. After the boundary, two hyphens close the body, and
anything else up to the end of the line is passed over. -/
def contents (dash : List UInt8) : (fuel : ℕ) → List UInt8 → Option (List (List UInt8))
  | 0, _ => none
  | fuel + 1, s =>
      if utf8Bytes "--" <+: s then some []
      else do
        let (_, s) ← s.dropInfix? crlf
        let (content, s) ← s.dropInfix? (crlf ++ dash)
        let rest ← contents dash fuel s
        some (content :: rest)

/-- The fields of a body, with the boundary of its content type. The body is read as if a line
ended before it. -/
def split (contentType : String) (body : List UInt8) : Option (List MultipartField) := do
  let boundary ← (utf8Bytes contentType).dropPrefix? (utf8Bytes "multipart/form-data; boundary=")
  let dash := utf8Bytes "--" ++ boundary
  let (_, s) ← (crlf ++ body).dropInfix? (crlf ++ dash)
  let contents ← contents dash body.length s
  contents.mapM readPart

/-! ## Clean headers -/

/-- A text without quotes or line breaks. -/
def CleanText (s : String) : Prop := ∀ b ∈ utf8Bytes s, b ≠ 13 ∧ b ≠ 10 ∧ b ≠ 34

/-- What a field writes into its header is clean. -/
structure Clean (field : MultipartField) : Prop where
  name : CleanText field.name
  filename : ∀ filename ∈ field.filename, CleanText filename
  contentType : ∀ ct ∈ field.contentType, CleanText ct

-- Over the bytes of the text only: a search by type would try every byte.
instance (s : String) : Decidable (CleanText s) :=
  decidable_of_iff (((utf8Bytes s).all fun b => b ≠ 13 ∧ b ≠ 10 ∧ b ≠ 34) = true)
    (by simp [CleanText])

theorem all_cleanText_iff (text : Option String) :
    (text.all fun s => CleanText s) = true ↔ ∀ s ∈ text, CleanText s := by
  cases text <;> simp

instance (field : MultipartField) : Decidable (Clean field) :=
  decidable_of_iff (CleanText field.name ∧ (field.filename.all fun s => CleanText s) = true ∧
      (field.contentType.all fun s => CleanText s) = true)
    (by
      rw [all_cleanText_iff, all_cleanText_iff]
      exact ⟨fun h => ⟨h.1, h.2.1, h.2.2⟩, fun h => ⟨h.name, h.filename, h.contentType⟩⟩)

/-- The beginning of a boundary line. -/
def dash : List UInt8 := utf8Bytes "--" ++ utf8Bytes multipartBoundary

/-- No line of a value begins with the boundary. -/
def NoDelimiter (value : List UInt8) : Prop := ¬ crlf ++ dash <:+: crlf ++ value

instance (value : List UInt8) : Decidable (NoDelimiter value) :=
  inferInstanceAs (Decidable (¬ crlf ++ dash <:+: crlf ++ value))

/-! ## What is between the boundaries -/

/-- The header lines of a field. -/
def lines (field : MultipartField) : List (List UInt8) :=
  (utf8Bytes "Content-Disposition: form-data; name=\"" ++ utf8Bytes field.name ++
      utf8Bytes "\"" ++
      field.filename.elim [] fun filename =>
        utf8Bytes "; filename=\"" ++ utf8Bytes filename ++ utf8Bytes "\"") ::
    (field.contentType.map fun ct => utf8Bytes "Content-Type: " ++ utf8Bytes ct).toList

/-- The header lines with their ends. -/
def head (field : MultipartField) : List UInt8 := (lines field).flatMap (· ++ crlf)

theorem encodeField_eq (field : MultipartField) :
    encodeField field = dash ++ (crlf ++ (head field ++ (crlf ++ field.value ++ crlf))) := by
  cases hct : field.contentType <;> simp [encodeField, head, lines, dash, hct]

/-- What comes after the first boundary. -/
def afterBoundary : List MultipartField → List UInt8
  | [] => utf8Bytes "--" ++ crlf
  | field :: fields =>
      crlf ++ (head field ++ (crlf ++ field.value ++ (crlf ++ dash ++ afterBoundary fields)))

theorem encodeMultipart_eq (fields : List MultipartField) :
    encodeMultipart fields = dash ++ afterBoundary fields := by
  induction fields with
  | nil => simp [encodeMultipart, afterBoundary, dash]
  | cons field fields ih =>
      have hcons : encodeMultipart (field :: fields) =
          encodeField field ++ encodeMultipart fields := by
        simp [encodeMultipart]
      rw [hcons, encodeField_eq, ih, afterBoundary]
      simp

theorem crlf_notMem_dash : (13 : UInt8) ∉ 10 :: dash := by decide

theorem CleanText.notMem {s : String} (h : CleanText s) :
    13 ∉ utf8Bytes s ∧ 34 ∉ utf8Bytes s :=
  ⟨fun hmem => (h 13 hmem).1 rfl, fun hmem => (h 34 hmem).2.2 rfl⟩

/-- A header line begins with a letter and has no line break. -/
theorem lines_clean {field : MultipartField} (h : Clean field) :
    ∀ line ∈ lines field, 13 ∉ line ∧ ∃ rest, line = 67 :: rest := by
  have hfixed : 13 ∉ utf8Bytes "Content-Disposition: form-data; name=\"" ∧
      13 ∉ utf8Bytes "; filename=\"" ∧ 13 ∉ utf8Bytes "\"" ∧
      13 ∉ utf8Bytes "Content-Type: " := by decide
  have hname := h.name.notMem.1
  have hfilename := h.filename
  intro line hline
  rw [lines, List.mem_cons] at hline
  rcases hline with rfl | hct
  · refine ⟨?_, _, rfl⟩
    cases hf : field.filename with
    | none => simp [hfixed, hname]
    | some filename =>
        have hclean := (hfilename filename (by simp [hf])).notMem.1
        simp [hfixed, hname, hclean]
  · cases ht : field.contentType with
    | none => simp [ht] at hct
    | some ct =>
        have hclean := (h.contentType ct (by simp [ht])).notMem.1
        rw [ht, Option.map_some, Option.toList_some, List.mem_singleton] at hct
        rw [hct]
        exact ⟨by simp [hfixed, hclean], _, rfl⟩

/-! ## Cutting at the boundary -/

/-- The boundary does not begin in header lines, nor at the end of the last one. -/
theorem cut_lines {ls : List (List UInt8)}
    (hls : ∀ line ∈ ls, 13 ∉ line ∧ ∃ rest, line = 67 :: rest) {t p s : List UInt8}
    (h : (crlf ++ t).dropInfix? (crlf ++ dash) = some (p, s)) :
    (ls.flatMap (· ++ crlf) ++ (crlf ++ t)).dropInfix? (crlf ++ dash) =
      some (ls.flatMap (· ++ crlf) ++ p, s) := by
  induction ls with
  | nil => exact h
  | cons line ls ih =>
      rw [List.forall_mem_cons] at hls
      -- What follows a line is another line or the empty one.
      have hnext : ∃ b rest, ls.flatMap (· ++ crlf) ++ (crlf ++ t) = b :: rest ∧ b ≠ 45 := by
        cases ls with
        | nil => exact ⟨13, _, rfl, by decide⟩
        | cons line' ls =>
            obtain ⟨-, rest, rfl⟩ := hls.2 line' List.mem_cons_self
            exact ⟨67, _, rfl, by decide⟩
      obtain ⟨b, rest, hrest, hb⟩ := hnext
      have hskip := ih hls.2
      have hdash : dash = 45 :: 45 :: utf8Bytes multipartBoundary := rfl
      rw [List.flatMap_cons]
      simp only [List.append_assoc]
      refine cut_skip hls.1.1 ?_
      refine cut_cons ?_ (cut_cons ?_ hskip)
      · intro hstart
        rw [hrest] at hstart
        have hthird : dash <+: b :: rest :=
          (List.cons_prefix_cons.mp (List.cons_prefix_cons.mp hstart).2).2
        rw [hdash, List.cons_prefix_cons] at hthird
        exact hb hthird.1.symm
      · intro hstart
        have hfirst := (List.cons_prefix_cons.mp hstart).1
        revert hfirst
        decide

/-- A value without a boundary line is followed by the next one. -/
theorem cut_value {field : MultipartField} (hclean : Clean field)
    (hvalue : NoDelimiter field.value) (t : List UInt8) :
    (head field ++ (crlf ++ field.value ++ (crlf ++ dash ++ t))).dropInfix? (crlf ++ dash) =
      some (head field ++ (crlf ++ field.value), t) := by
  have hcut : (crlf ++ (field.value ++ (crlf ++ dash ++ t))).dropInfix? (crlf ++ dash) =
      some (crlf ++ field.value, t) := by
    rw [← List.append_assoc]
    exact cut_append crlf_notMem_dash hvalue t
  rw [List.append_assoc]
  exact cut_lines (lines_clean hclean) hcut

/-- A value with a boundary line is cut off there. -/
theorem cut_inside {field : MultipartField} (hclean : Clean field)
    (hvalue : ¬ NoDelimiter field.value) (t : List UInt8) :
    ∃ p s, (head field ++ (crlf ++ field.value ++ t)).dropInfix? (crlf ++ dash) =
      some (head field ++ p, s) ∧ p.length < field.value.length + 2 := by
  obtain ⟨p, s, hcut, hlen⟩ := cut_append_of_infix (not_not.mp hvalue) t
  refine ⟨p, s, ?_, ?_⟩
  · rw [List.append_assoc] at hcut ⊢
    exact cut_lines (lines_clean hclean) hcut
  · have hdash : 0 < dash.length := by decide
    simp only [List.length_append] at hlen
    have htwo : crlf.length = 2 := rfl
    omega

/-! ## Reading a part -/

theorem headerLines_lines {ls : List (List UInt8)}
    (hls : ∀ line ∈ ls, 13 ∉ line ∧ ∃ rest, line = 67 :: rest) (fuel : ℕ) (p : List UInt8) :
    headerLines (fuel + ls.length) (ls.flatMap (· ++ crlf) ++ p) =
      (headerLines fuel p).map fun r => (ls ++ r.1, r.2) := by
  induction ls with
  | nil => simp
  | cons line ls ih =>
      rw [List.forall_mem_cons] at hls
      obtain ⟨hbreak, rest, hline⟩ := hls.1
      have hcut : (line ++ (crlf ++ (ls.flatMap (· ++ crlf) ++ p))).dropInfix? crlf =
          some (line, ls.flatMap (· ++ crlf) ++ p) :=
        cut_append_of_notMem (by decide) hbreak _
      rw [List.length_cons, ← Nat.add_assoc, headerLines, List.flatMap_cons, List.append_assoc,
        List.append_assoc, hcut]
      simp only [Option.bind_eq_bind, Option.bind_some]
      rw [if_neg (by rw [hline]; simp), ih hls.2]
      cases headerLines fuel p <;> rfl

/-- An empty line is passed over before a value. -/
theorem length_of_headerLines {fuel : ℕ} {s value : List UInt8} {ls : List (List UInt8)}
    (h : headerLines fuel s = some (ls, value)) : value.length + 2 ≤ s.length := by
  induction fuel generalizing s ls with
  | zero => cases h
  | succ fuel ih =>
      rw [headerLines] at h
      simp only [Option.bind_eq_bind, Option.bind_eq_some_iff] at h
      obtain ⟨⟨line, rest⟩, hcut, h⟩ := h
      have hlen := congrArg List.length (eq_of_cut hcut)
      simp only [List.length_append] at hlen
      have htwo : crlf.length = 2 := rfl
      dsimp only at hlen h
      by_cases hempty : line = []
      · rw [if_pos hempty] at h
        cases h
        omega
      · rw [if_neg hempty] at h
        simp only [Option.bind_eq_some_iff] at h
        obtain ⟨⟨ls', value'⟩, hrest, h⟩ := h
        cases h
        have hle := ih hrest
        omega

theorem params_cons {fuel : ℕ} {key value : List UInt8} (hkey : 61 ∉ key) (hvalue : 34 ∉ value)
    (s : List UInt8) :
    params (fuel + 1) (utf8Bytes "; " ++ (key ++ (utf8Bytes "=\"" ++
        (value ++ (utf8Bytes "\"" ++ s))))) =
      (params fuel s).map ((key, value) :: ·) := by
  have hequals : utf8Bytes "=\"" = [61, 34] := by decide
  have hquote : utf8Bytes "\"" = [34] := by decide
  have hcutKey : (key ++ ([61, 34] ++ (value ++ ([34] ++ s)))).dropInfix? [61, 34] =
      some (key, value ++ ([34] ++ s)) := cut_append_of_notMem (by decide) hkey _
  have hcutValue : (value ++ ([34] ++ s)).dropInfix? [34] = some (value, s) :=
    cut_append_of_notMem (by simp) hvalue _
  rw [params, List.dropPrefix?_append_of_beq _ (by simp), hequals, hquote]
  · simp only [Option.bind_eq_bind, Option.bind_some, hcutKey, hcutValue]
    cases params fuel s <;> rfl
  · intro hnil
    have hsemi : utf8Bytes "; " ≠ [] := by decide
    exact hsemi (List.append_eq_nil_iff.mp hnil).1

/-- What a field writes after `form-data`. -/
def written (field : MultipartField) : List UInt8 :=
  utf8Bytes "; " ++ (utf8Bytes "name" ++ (utf8Bytes "=\"" ++ (utf8Bytes field.name ++
    (utf8Bytes "\"" ++ field.filename.elim [] fun filename =>
      utf8Bytes "; " ++ (utf8Bytes "filename" ++ (utf8Bytes "=\"" ++ (utf8Bytes filename ++
        (utf8Bytes "\"" ++ []))))))))

theorem lines_eq (field : MultipartField) :
    lines field =
      (utf8Bytes "Content-Disposition" ++ utf8Bytes ": " ++
          (utf8Bytes "form-data" ++ written field)) ::
        (field.contentType.map fun ct =>
          utf8Bytes "Content-Type" ++ utf8Bytes ": " ++ utf8Bytes ct).toList := by
  have hdisposition : utf8Bytes "Content-Disposition: form-data; name=\"" =
      utf8Bytes "Content-Disposition" ++ (utf8Bytes ": " ++ (utf8Bytes "form-data" ++
        (utf8Bytes "; " ++ (utf8Bytes "name" ++ utf8Bytes "=\"")))) := by decide
  have hfilename : utf8Bytes "; filename=\"" =
      utf8Bytes "; " ++ (utf8Bytes "filename" ++ utf8Bytes "=\"") := by decide
  have htype : utf8Bytes "Content-Type: " = utf8Bytes "Content-Type" ++ utf8Bytes ": " := by
    decide
  rw [lines, hdisposition, hfilename, htype, written]
  cases field.filename <;> simp

theorem params_written {field : MultipartField} (h : Clean field) :
    params (written field).length (written field) =
      some ((utf8Bytes "name", utf8Bytes field.name) ::
        (field.filename.map fun filename => (utf8Bytes "filename", utf8Bytes filename)).toList) := by
  obtain ⟨fuel, hfuel⟩ : ∃ fuel, (written field).length = fuel + 2 := by
    have hlen : 2 ≤ (utf8Bytes "; ").length := by decide
    refine ⟨(written field).length - 2, ?_⟩
    rw [written, List.length_append]
    omega
  have hname : 61 ∉ utf8Bytes "name" := by decide
  have hfilename : 61 ∉ utf8Bytes "filename" := by decide
  rw [hfuel, written, params_cons hname h.name.notMem.2]
  cases hf : field.filename with
  | none => rfl
  | some filename =>
      rw [Option.elim_some, params_cons hfilename (h.filename filename (by simp [hf])).notMem.2]
      cases fuel <;> rfl

/-- The headers of a field are read as they were written. -/
theorem headerValue_lines (field : MultipartField) :
    headerValue "Content-Disposition" (lines field) =
        some (utf8Bytes "form-data" ++ written field) ∧
      headerValue "Content-Type" (lines field) = field.contentType.map utf8Bytes := by
  rw [lines_eq]
  constructor
  · rw [headerValue, List.findSome?_cons, List.dropPrefix?_append_of_beq _ (by simp)]
  · have hother (s : List UInt8) : (utf8Bytes "Content-Disposition" ++ utf8Bytes ": " ++
        s).dropPrefix? (utf8Bytes "Content-Type" ++ utf8Bytes ": ") = none := rfl
    rw [headerValue, List.findSome?_cons, hother]
    cases field.contentType with
    | none => rfl
    | some ct =>
        rw [Option.map_some, Option.toList_some, List.findSome?_cons,
          List.dropPrefix?_append_of_beq _ (by simp)]
        rfl

theorem length_lines_le (field : MultipartField) :
    (lines field).length ≤ (head field).length := by
  rw [head]
  induction lines field with
  | nil => exact Nat.zero_le _
  | cons line ls ih =>
      have htwo : crlf.length = 2 := rfl
      simp only [List.flatMap_cons, List.length_append, List.length_cons]
      omega

theorem headerLines_head {field : MultipartField} (h : Clean field) (p : List UInt8) :
    headerLines (head field ++ p).length (head field ++ p) =
      (headerLines ((head field ++ p).length - (lines field).length) p).map fun r =>
        (lines field ++ r.1, r.2) := by
  have hfuel : (head field ++ p).length =
      (head field ++ p).length - (lines field).length + (lines field).length := by
    have hlines := length_lines_le field
    rw [List.length_append]
    omega
  have hread := headerLines_lines (lines_clean h)
    ((head field ++ p).length - (lines field).length) p
  rwa [← hfuel] at hread

/-- **A whole part is its field.** -/
theorem readPart_content {field : MultipartField} (h : Clean field) :
    readPart (head field ++ (crlf ++ field.value)) = some field := by
  have hvalue (fuel : ℕ) : headerLines (fuel + 1) (crlf ++ field.value) = some ([], field.value) := by
    have hcut : (crlf ++ field.value).dropInfix? crlf = some ([], field.value) :=
      cut_append_of_notMem (v := []) (by decide) (by simp) _
    rw [headerLines, hcut]
    rfl
  obtain ⟨fuel, hfuel⟩ : ∃ fuel,
      (head field ++ (crlf ++ field.value)).length - (lines field).length = fuel + 1 := by
    have hlines := length_lines_le field
    have htwo : crlf.length = 2 := rfl
    refine ⟨(head field ++ (crlf ++ field.value)).length - (lines field).length - 1, ?_⟩
    simp only [List.length_append]
    omega
  have hother : (utf8Bytes "filename" == utf8Bytes "name") = false := by decide
  obtain ⟨hdisposition, htype⟩ := headerValue_lines field
  rw [readPart, headerLines_head h, hfuel, hvalue]
  simp only [Option.map_some, List.append_nil, Option.bind_eq_bind, Option.bind_some,
    hdisposition, htype]
  rw [List.dropPrefix?_append_of_beq _ (by simp)]
  simp only [Option.bind_some, params_written h, List.lookup_cons_self, fromUtf8_utf8Bytes,
    List.lookup_cons, hother]
  obtain ⟨name, filename, contentType, value⟩ := field
  cases filename <;> cases contentType <;> simp

/-- A value that is read of a part ends with it. -/
theorem readPart_cut {field read : MultipartField} (h : Clean field) {p : List UInt8}
    (hread : readPart (head field ++ p) = some read) : read.value.length + 2 ≤ p.length := by
  rw [readPart, headerLines_head h] at hread
  simp only [Option.bind_eq_bind, Option.bind_eq_some_iff, Option.map_eq_some_iff] at hread
  obtain ⟨_, ⟨⟨ls, value⟩, hlines, rfl⟩, _, _, _, _, _, _, _, _, hread⟩ := hread
  cases hread
  exact length_of_headerLines hlines

/-! ## The fields -/

theorem contents_cons (fuel : ℕ) (field : MultipartField) (fields : List MultipartField) :
    contents dash (fuel + 1) (afterBoundary (field :: fields)) =
      ((head field ++ (crlf ++ field.value ++ (crlf ++ dash ++
        afterBoundary fields))).dropInfix? (crlf ++ dash)).bind fun r =>
          (contents dash fuel r.2).map (r.1 :: ·) := by
  have hopen : ¬ utf8Bytes "--" <+: afterBoundary (field :: fields) := by
    intro hstart
    have hhyphens : utf8Bytes "--" = [45, 45] := by decide
    rw [hhyphens, afterBoundary] at hstart
    have hfirst := (List.cons_prefix_cons.mp hstart).1
    revert hfirst
    decide
  have hline (t : List UInt8) : (crlf ++ t).dropInfix? crlf = some ([], t) :=
    cut_append_of_notMem (v := []) (by decide) (by simp) t
  rw [contents, if_neg hopen, afterBoundary, hline]
  simp only [Option.bind_eq_bind, Option.bind_some]
  congr 1
  ext r
  cases contents dash fuel r.2 <;> simp

/-- **The fields are found exactly when no value has a boundary line.** -/
theorem contents_iff {fields : List MultipartField} (hclean : ∀ f ∈ fields, Clean f) {fuel : ℕ}
    (hfuel : fields.length < fuel) :
    (contents dash fuel (afterBoundary fields)).bind (List.mapM readPart) = some fields ↔
      ∀ f ∈ fields, NoDelimiter f.value := by
  induction fields generalizing fuel with
  | nil =>
      obtain ⟨fuel, rfl⟩ : ∃ n, fuel = n + 1 := ⟨fuel - 1, by omega⟩
      have hclose : utf8Bytes "--" <+: afterBoundary [] := List.prefix_append _ _
      rw [contents, if_pos hclose]
      simp
  | cons field fields ih =>
      obtain ⟨fuel, rfl⟩ : ∃ n, fuel = n + 1 := ⟨fuel - 1, by omega⟩
      rw [List.forall_mem_cons] at hclean
      rw [contents_cons, List.forall_mem_cons]
      by_cases hvalue : NoDelimiter field.value
      · have hleft : fields.length < fuel := by
          rw [List.length_cons] at hfuel
          omega
        have hrest := ih hclean.2 hleft
        rw [cut_value hclean.1 hvalue, Option.bind_some, and_iff_right hvalue, ← hrest]
        cases contents dash fuel (afterBoundary fields) with
        | none => simp
        | some parts =>
            simp only [Option.map_some, Option.bind_some, List.mapM_cons, readPart_content hclean.1,
              Option.bind_eq_bind]
            cases parts.mapM readPart <;> simp
      · obtain ⟨p, s, hcut, hlen⟩ := cut_inside hclean.1 hvalue
          (crlf ++ dash ++ afterBoundary fields)
        rw [hcut, Option.bind_some, iff_false_right (fun h => hvalue h.1)]
        intro hread
        simp only [Option.bind_eq_some_iff, Option.map_eq_some_iff] at hread
        obtain ⟨_, ⟨parts, -, rfl⟩, hparts⟩ := hread
        simp only [List.mapM_cons, Option.bind_eq_bind, Option.bind_eq_some_iff] at hparts
        obtain ⟨read, hfirst, reads, -, hreads⟩ := hparts
        have hsame : read = field := by
          cases hreads
          rfl
        have hle := readPart_cut hclean.1 hfirst
        rw [hsame] at hle
        omega

end Multipart

open Multipart

/-- The fields that a receiver makes of a form. -/
def receivedFields (fields : List MultipartField) : Option (List MultipartField) :=
  (RequestBody.multipart fields).carried.2.bind fun body => split body.2 body.1

theorem receivedFields_eq (fields : List MultipartField) :
    receivedFields fields =
      (contents dash (encodeMultipart fields).length (afterBoundary fields)).bind
        (List.mapM readPart) := by
  have htype : utf8Bytes ("multipart/form-data; boundary=" ++ multipartBoundary) =
      utf8Bytes "multipart/form-data; boundary=" ++ utf8Bytes multipartBoundary := by
    decide
  have hfirst : (crlf ++ (dash ++ afterBoundary fields)).dropInfix? (crlf ++ dash) =
      some ([], afterBoundary fields) := by
    rw [← List.append_assoc]
    exact cut_append_of_notMem (v := []) crlf_notMem_dash (by simp) _
  rw [receivedFields, RequestBody.carried, Option.bind_some, split, htype,
    List.dropPrefix?_append_of_beq _ (by simp)]
  simp only [Option.bind_eq_bind, Option.bind_some]
  rw [← dash, encodeMultipart_eq, hfirst]
  rfl

theorem length_lt_encodeMultipart (fields : List MultipartField) :
    fields.length < (encodeMultipart fields).length := by
  have hdash : 0 < dash.length := by decide
  have hafter : fields.length ≤ (afterBoundary fields).length := by
    induction fields with
    | nil => exact Nat.zero_le _
    | cons field fields ih =>
        have htwo : crlf.length = 2 := rfl
        simp only [afterBoundary, List.length_append, List.length_cons]
        omega
  rw [encodeMultipart_eq, List.length_append]
  omega

/-- **Multipart bodies.** A form with clean headers is received as it was sent exactly when no
value has a line that begins with the boundary. -/
theorem receivedFields_iff (fields : List MultipartField) (hclean : ∀ f ∈ fields, Clean f) :
    receivedFields fields = some fields ↔ ∀ f ∈ fields, NoDelimiter f.value := by
  rw [receivedFields_eq]
  exact contents_iff hclean (length_lt_encodeMultipart fields)

deriving instance DecidableEq for MultipartField

/-- A text field and a binary one. -/
theorem receivedFields_iff_sample :
    receivedFields [⟨"target", none, none, utf8Bytes "arweave"⟩,
        ⟨"file_0", some "file_0", some "application/octet-stream", [0x00, 0xff, 0x0d, 0x0a]⟩] =
      some [⟨"target", none, none, utf8Bytes "arweave"⟩,
        ⟨"file_0", some "file_0", some "application/octet-stream", [0x00, 0xff, 0x0d, 0x0a]⟩] :=
  (receivedFields_iff _ (by simp only [List.forall_mem_cons]; decide)).mpr
    (by simp only [List.forall_mem_cons]; decide)

/-- A file whose second line is a boundary is cut off there, and what it goes on with is received
as a field of its own. -/
theorem receivedFields_not_exact :
    ∃ file : List UInt8,
      Clean ⟨"file_0", some "file_0", some "application/octet-stream", file⟩ ∧
        receivedFields [⟨"file_0", some "file_0", some "application/octet-stream", file⟩] =
          some [⟨"file_0", some "file_0", some "application/octet-stream", utf8Bytes "x"⟩,
            ⟨"target", none, none, utf8Bytes "crafted"⟩] := by
  refine ⟨utf8Bytes "x" ++ crlf ++ dash ++ crlf ++
    utf8Bytes "Content-Disposition: form-data; name=\"target\"" ++ crlf ++ crlf ++
      utf8Bytes "crafted", ?_, ?_⟩
  · decide
  · decide +kernel

end Label309
