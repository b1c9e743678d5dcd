/-
  Header lines — the headers of a part, written one to a line and read back.

  A header line is a name, a colon and a space, and a value.  What may stand in a value is
  printable ASCII without spaces around it (`IsValue`).  The lines end at the first empty one.

  * `headerLine?_headerLine`: a header line is read as its name and its value;
  * `cutAt?_emptyLine`: the lines are cut off at the empty line behind them;
  * `headerLines_lines`: what is cut off is read as these lines.
-/
import SessionGateway.Multipart.Parts
import SessionGateway.Proofs.Http.Headers
import SessionGateway.Proofs.Text.Cutting

namespace SessionGateway.Multipart

/-! ## Header lines -/

/-- A header line. -/
def headerLine (name : Text) (value : Bytes) : Bytes := Utf8.encode name ++ 0x3A :: 0x20 :: value

/-- Whether a value is written without spaces or tabs around it. -/
def isFlush (value : Bytes) : Bool :=
  value.head?.all (!isPadding ·) && value.getLast?.all (!isPadding ·)

theorem trimBy_isPadding {value : Bytes} (h : isFlush value = true) :
    trimBy isPadding value = value := by
  rw [isFlush, Bool.and_eq_true] at h
  exact trimBy_of_ends h.1 h.2

/-- **A header line is read as its name and its value.** -/
theorem headerLine?_headerLine {name n : Text} {value : Bytes} (hname : Header.name? name = some n)
    (hvalue : value.all inValue = true) (hflush : isFlush value = true) :
    headerLine? (headerLine name value) = some (n, value) := by
  have htoken : ∀ c ∈ name, Header.isToken c = true := Header.isToken_of_name? hname
  have hlow : ∀ c ∈ name, c.toNat < 128 := fun c hc => Header.lt_of_isToken (htoken c hc)
  have hcolon : 0x3A ∉ Utf8.encode name := by
    intro hm
    obtain ⟨c, hc, he⟩ := Utf8.mem_encode_of_lt hm (by decide)
    have hcolon : c = ':' := by rw [← Char.ofNat_toNat c, he]; rfl
    have := htoken c hc
    rw [hcolon] at this
    exact absurd this (by decide)
  have hspace : (0x20 :: value).all inValue = true := by
    rw [List.all_cons, hvalue]
    rfl
  have htrim : trimBy isPadding (0x20 :: value) = value := trimBy_isPadding hflush
  rw [headerLine?, headerLine, cut?_append_cons hcolon, Option.bind_some]
  dsimp only
  rw [if_pos hspace, Utf8.map_ofNat_encode hlow, hname, htrim]
  rfl

/-- Text that may stand in a header line: printable ASCII without spaces around it. -/
structure IsValue (t : Text) : Prop where
  printable : ∀ c ∈ t, 0x20 ≤ c.toNat ∧ c.toNat ≤ 0x7E
  head : t.head? ≠ some ' '
  last : t.getLast? ≠ some ' '

section
variable {t : Text} (ht : IsValue t)
include ht

theorem IsValue.lt : ∀ c ∈ t, c.toNat < 128 := fun c hc => by
  have := ht.printable c hc
  omega

theorem IsValue.all_inValue : (Utf8.encode t).all inValue = true := by
  rw [Utf8.encode_ascii ht.lt, List.all_eq_true]
  intro b hb
  obtain ⟨c, hc, rfl⟩ := List.mem_map.1 hb
  have hrange := ht.printable c hc
  have h8 : c.toNat < 256 := by omega
  have hdelete : c.toNat ≠ 0x7F := by omega
  have hdel : Utf8.octet c.toNat ≠ 0x7F := fun he => hdelete ((Utf8.octet_eq_iff h8 _).1 he)
  have hlow : 0x20 ≤ Utf8.octet c.toNat := (Utf8.le_octet_iff h8 _).2 hrange.1
  rw [inValue, bne_iff_ne.2 hdel, decide_eq_true hlow]
  exact Bool.or_true _

theorem IsValue.isFlush_encode : isFlush (Utf8.encode t) = true := by
  have hpadding : ∀ c ∈ t, c ≠ ' ' → isPadding (Utf8.octet c.toNat) = false := by
    intro c hc hne
    have hrange := ht.printable c hc
    have h8 : c.toNat < 256 := by omega
    have hspace : c.toNat ≠ 32 := fun he => hne (by rw [← Char.ofNat_toNat c, he])
    rw [isPadding, Bool.or_eq_false_iff, beq_eq_false_iff_ne, beq_eq_false_iff_ne, ne_eq, ne_eq,
      Utf8.octet_eq_iff h8, Utf8.octet_eq_iff h8]
    have htab : c.toNat ≠ 9 := by omega
    exact ⟨hspace, htab⟩
  have hends : ∀ o : Option Char, (∀ c, o = some c → c ∈ t) → o ≠ some ' ' →
      (o.map fun c => Utf8.octet c.toNat).all (!isPadding ·) = true := by
    intro o hmem hne
    cases o with
    | none => rfl
    | some c =>
      rw [Option.map_some, Option.all_some, hpadding c (hmem c rfl) fun h => hne (h ▸ rfl)]
      rfl
  rw [Utf8.encode_ascii ht.lt, isFlush, List.head?_map, List.getLast?_map,
    hends _ (fun _ => List.mem_of_head?) ht.head, hends _ (fun _ => List.mem_of_getLast?) ht.last]
  rfl

end

/-- Lines, each with a line end behind it. -/
def lines (ls : List Bytes) : Bytes := ls.flatMap (· ++ lineEnd)

theorem lines_cons (l : Bytes) (ls : List Bytes) : lines (l :: ls) = l ++ lineEnd ++ lines ls :=
  List.flatMap_cons

/-- A line of a header: it is not empty, and has no octet of a line end. -/
structure IsLine (l : Bytes) : Prop where
  nonempty : l ≠ []
  no_return : 13 ∉ l
  no_feed : 10 ∉ l

section
variable {l : Bytes} {ls : List Bytes}

/-- No line holds the end of the header. -/
theorem cutAt?_line (hl : IsLine l) (ys : Bytes) :
    cutAt? (lineEnd ++ lineEnd) (l ++ ys) =
      (cutAt? (lineEnd ++ lineEnd) ys).map fun (before, after) => (l ++ before, after) :=
  cutAt?_append_of_not_mem hl.no_return [10, 13, 10] ys

/-- A line end that another line follows does not end the header. -/
theorem cutAt?_lineEnd (hl : IsLine l) (ys : Bytes) :
    cutAt? (lineEnd ++ lineEnd) (lineEnd ++ (l ++ ys)) =
      (cutAt? (lineEnd ++ lineEnd) (l ++ ys)).map fun (before, after) =>
        (lineEnd ++ before, after) := by
  -- the end of the header has a carriage return where the line has its first octet
  cases l with
  | nil => exact absurd rfl hl.nonempty
  | cons b l =>
    have hb : ¬ (13 : UInt8) = b := fun he => hl.no_return (he ▸ List.mem_cons_self)
    have hreturn : dropStart? (lineEnd ++ lineEnd) (13 :: 10 :: (b :: l ++ ys)) = none := by
      simp [dropStart?, lineEnd, hb]
    have hfeed : dropStart? (lineEnd ++ lineEnd) (10 :: (b :: l ++ ys)) = none := rfl
    show cutAt? _ (13 :: 10 :: (b :: l ++ ys)) = _
    rw [cutAt?, hreturn, cutAt?, hfeed, Option.map_map]
    rfl

/-- **The header lines end at the empty line.** -/
theorem cutAt?_emptyLine (hl : IsLine l) (hls : ∀ l ∈ ls, IsLine l) (content : Bytes) :
    ∃ block, block ++ lineEnd = lines (l :: ls) ∧
      cutAt? (lineEnd ++ lineEnd) (lines (l :: ls) ++ lineEnd ++ content) =
        some (block, content) := by
  induction ls generalizing l with
  | nil =>
    refine ⟨l, (List.append_nil _).symm, ?_⟩
    have hend : lines [l] ++ lineEnd ++ content = l ++ ((lineEnd ++ lineEnd) ++ content) := by
      simp only [lines, List.flatMap_cons, List.flatMap_nil, List.append_assoc, List.nil_append]
    rw [hend, cutAt?_line hl, cutAt?_self_append]
    simp only [Option.map_some, List.append_nil]
  | cons l' ls ih =>
    rw [List.forall_mem_cons] at hls
    obtain ⟨block, hblock, hcut⟩ := ih hls.1 hls.2
    refine ⟨l ++ lineEnd ++ block, ?_, ?_⟩
    · rw [List.append_assoc _ block, hblock, ← lines_cons]
    · rw [lines_cons, List.append_assoc _ lineEnd, List.append_assoc l' ] at hcut
      rw [lines_cons, lines_cons]
      simp only [List.append_assoc] at hcut ⊢
      rw [cutAt?_line hl, cutAt?_lineEnd hls.1, hcut]
      rfl

theorem lines_eq_intercalate (ls : List Bytes) :
    lines ls = [10].intercalate (ls.map (· ++ [13]) ++ [[]]) := by
  induction ls with
  | nil => rfl
  | cons l ls ih =>
    rw [lines_cons, ih, List.map_cons, List.cons_append]
    cases ls with
    | nil => simp [lineEnd]
    | cons l' ls => simp [lineEnd]

/-- The lines of a header are read up to the empty one. -/
theorem headerLines_lines (hls : ∀ l ∈ ls, IsLine l) {block : Bytes}
    (hblock : block ++ lineEnd = lines ls) : headerLines block = ls := by
  have hsplit : (lines ls).splitOn 10 = ls.map (· ++ [13]) ++ [[]] := by
    rw [lines_eq_intercalate]
    refine List.splitOn_intercalate 10 (fun l hl => ?_) (by simp)
    rcases List.mem_append.1 hl with hl | hl
    · obtain ⟨l', hl', rfl⟩ := List.mem_map.1 hl
      simpa using (hls l' hl').no_feed
    · rw [List.mem_singleton.1 hl]
      exact List.not_mem_nil
  have hdrop : ∀ l : Bytes, (dropEnd? [13] (l ++ [13])).getD (l ++ [13]) = l := by
    intro l
    rw [dropEnd?, List.reverse_append, dropStart?_self_append]
    exact List.reverse_reverse l
  have hread : ((lines ls).splitOn 10).map (fun line => (dropEnd? [13] line).getD line) =
      ls ++ [[]] := by
    rw [hsplit, List.map_append, List.map_map]
    exact congrArg (· ++ _) ((List.map_congr_left fun l _ => hdrop l).trans (List.map_id ls))
  rw [headerLines, hblock, hread, List.takeWhile_append_of_pos, List.takeWhile_cons]
  · exact List.append_nil ls
  · intro l hl
    simpa using (hls l hl).nonempty

end
/-- A header line is one. -/
theorem isLine_headerLine {name n : Text} {value : Bytes} (hname : Header.name? name = some n)
    (hvalue : value.all inValue = true) : IsLine (headerLine name value) := by
  have hout : ∀ b : UInt8, b = 13 ∨ b = 10 → b ∉ headerLine name value := by
    intro b hb hm
    simp only [headerLine, List.mem_append, List.mem_cons] at hm
    rcases hm with hm | rfl | rfl | hm
    · have hlow : b.toNat < 128 := by rcases hb with rfl | rfl <;> decide
      obtain ⟨c, hc, he⟩ := Utf8.mem_encode_of_lt hm hlow
      have htoken := Header.isToken_of_name? hname c hc
      rw [← Char.ofNat_toNat c, he] at htoken
      rcases hb with rfl | rfl <;> exact absurd htoken (by decide)
    · rcases hb with hb | hb <;> exact absurd hb (by decide)
    · rcases hb with hb | hb <;> exact absurd hb (by decide)
    · have hin := List.all_eq_true.1 hvalue b hm
      rcases hb with rfl | rfl <;> exact absurd hin (by decide)
  exact ⟨List.append_ne_nil_of_right_ne_nil _ (List.cons_ne_nil _ _), hout 13 (.inl rfl),
    hout 10 (.inr rfl)⟩

end SessionGateway.Multipart
