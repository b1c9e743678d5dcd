/-
  Attributes of a disposition — which names are read from the line of a form field.

  The names of a field stand between quotation marks, and are made of plain characters
  (`isPlain`).  An attribute begins behind a blank or a semicolon; behind an occurrence of its name
  that is none, the search begins anew, and takes the place right behind it for one where an
  attribute may begin.

  * `quotedValue?_append`: a value is read up to its quotation mark;
  * `afterName?_inner`: two occurrences in a row end the search, any others are passed over;
  * `attribute?_name`: the name of a field is read;
  * `attribute?_fileName`: so is the name of its file, unless the name of the field holds
    `filenamefilename`.
-/
import SessionGateway.Multipart.Disposition
import SessionGateway.Proofs.Http.Headers
import SessionGateway.Proofs.Text.Cutting

namespace SessionGateway.Multipart

/-! ## Plain names -/

/-- The characters of plain names: ASCII letters, digits, dots, underscores and hyphens. -/
def isPlain (c : Char) : Bool := c.isAlphanum || "._-".toList.contains c

/-- Whether an octet has no meaning of its own in a disposition. -/
def isInner (b : UInt8) : Bool :=
  !Text.isAsciiBlank b && b != 0x3B && b != 0x3D && b != 0x22 && b != 0x5C

theorem isToken_of_isPlain {c : Char} (h : isPlain c = true) : Header.isToken c = true := by
  have hmarks : ∀ c ∈ "._-".toList, Header.isToken c = true := by decide
  rw [isPlain, Bool.or_eq_true, List.contains_iff_mem] at h
  rcases h with h | h
  · rw [Header.isToken, h, Bool.true_or]
  · exact hmarks c h

theorem lt_of_isPlain {c : Char} (h : isPlain c = true) : c.toNat < 128 :=
  Header.lt_of_isToken (isToken_of_isPlain h)

theorem printable_of_isPlain {c : Char} (h : isPlain c = true) :
    0x20 ≤ c.toNat ∧ c.toNat ≤ 0x7E := by
  have hd : ∀ n : Fin 128, isPlain (Char.ofNat n.val) = true → 0x20 ≤ n.val ∧ n.val ≤ 0x7E := by
    decide +kernel
  refine hd ⟨c.toNat, lt_of_isPlain h⟩ ?_
  rwa [Char.ofNat_toNat]

/-- The octets of a plain name have no meaning of their own. -/
theorem isInner_of_mem_encode {t : Text} (h : ∀ c ∈ t, isPlain c = true) :
    ∀ b ∈ Utf8.encode t, isInner b = true := by
  have hd : ∀ n : Fin 128, isPlain (Char.ofNat n.val) = true →
      isInner (Utf8.octet n.val) = true := by
    decide +kernel
  rw [Utf8.encode_ascii fun c hc => lt_of_isPlain (h c hc)]
  refine List.forall_mem_map.2 fun c hc => hd ⟨c.toNat, lt_of_isPlain (h c hc)⟩ ?_
  rw [Char.ofNat_toNat]
  exact h c hc

/-! ## Values -/

/-- **A value is read up to its quotation mark.** -/
theorem quotedValue?_append {v : Bytes} (h : ∀ b ∈ v, isInner b = true) (rest : Bytes) :
    quotedValue? (v ++ 0x22 :: rest) = some v := by
  induction v with
  | nil => rfl
  | cons b v ih =>
    rw [List.forall_mem_cons] at h
    have hb : b ≠ 0x22 ∧ b ≠ 0x5C := by
      have := h.1
      simp only [isInner, Bool.and_eq_true, bne_iff_ne] at this
      exact ⟨this.1.2, this.2⟩
    rw [List.cons_append, quotedValue?.eq_3 _ _ fun _ he _ => hb.2 he, if_neg hb.1, ih h.2]
    rfl

/-- No value begins at an octet without a meaning, or at a quotation mark. -/
theorem behind?_inner {v : Bytes} (h : ∀ b ∈ v, isInner b = true) (rest : Bytes) :
    behind? 0x3D (v ++ 0x22 :: rest) = none := by
  cases v with
  | nil => rfl
  | cons b v =>
    have hb := h b List.mem_cons_self
    simp only [isInner, Bool.and_eq_true, bne_iff_ne, Bool.not_eq_true'] at hb
    rw [behind?, List.cons_append, List.dropWhile_cons, hb.1.1.1.1]
    exact if_neg hb.1.1.2

/-! ## The search for an attribute -/

variable {name xs before after : Bytes} {d : UInt8}

theorem afterName?_of_some (hn : name ≠ []) (h : cutAt? name xs = some (before, after)) :
    afterName? name xs = if mayBegin before then some after else afterName? name after := by
  cases name with
  | nil => exact absurd rfl hn
  | cons n ns =>
    rw [afterName?]
    split
    · next h' =>
      cases h.symm.trans h'
      rfl
    · next h' => cases h.symm.trans h'

theorem afterName?_of_none (h : cutAt? name xs = none) : afterName? name xs = none := by
  cases name with
  | nil => rw [afterName?]
  | cons n ns =>
    rw [afterName?]
    split
    · next h' => cases h.symm.trans h'
    · rfl

/-- What has no occurrence of the name, up to an octet that the name does not have, does not count
    in the search. -/
theorem afterName?_append_cons (hn : name ≠ []) (hd : d ∉ name) (hx : ¬ name <:+: xs)
    (ys : Bytes) : afterName? name (xs ++ d :: ys) = afterName? name (d :: ys) := by
  have hcut := cutAt?_append_cons hd hx ys
  have hcut' := cutAt?_append_cons hd (fun h => hn (List.infix_nil.1 h)) ys
  rw [List.nil_append] at hcut'
  cases hys : cutAt? name ys with
  | none =>
    rw [hys] at hcut hcut'
    rw [afterName?_of_none hcut, afterName?_of_none hcut']
  | some r =>
    rw [hys] at hcut hcut'
    have hlast : mayBegin (xs ++ d :: r.1) = mayBegin ([] ++ d :: r.1) := by
      simp only [mayBegin, List.getLast?_append, List.getLast?_cons, Option.some_or]
    rw [afterName?_of_some hn hcut, afterName?_of_some hn hcut', hlast]

/-- Behind octets without a meaning, no attribute begins. -/
theorem mayBegin_inner {v : Bytes} (h : ∀ b ∈ v, isInner b = true) (hv : v ≠ []) :
    mayBegin v = false := by
  have hlast := h _ (List.getLast_mem hv)
  simp only [isInner, Bool.and_eq_true, bne_iff_ne, Bool.not_eq_true'] at hlast
  rw [mayBegin, List.getLast?_eq_some_getLast hv]
  simp only [hlast.1.1.1.1, Bool.false_or, beq_eq_false_iff_ne]
  exact hlast.1.1.1.2

section
variable {c : UInt8} {mark v : Bytes} (hc : c ∉ mark)

/-- An occurrence at the start of a value, or one right behind another one. -/
def Derails (name v : Bytes) : Prop := name <+: v ∨ name ++ name <:+: v

include hc

/-- Two occurrences in a row stand in a value if the first occurrence makes what follows it
    derail. -/
theorem twice_iff (h : cutAt? (c :: mark) v = some (before, after)) :
    (c :: mark) ++ (c :: mark) <:+: v ↔ Derails (c :: mark) after := by
  obtain ⟨hv, -⟩ := (cutAt?_eq_some_iff (List.cons_ne_nil c mark)).1 h
  refine ⟨infix_of_twice hc h, ?_⟩
  rintro (⟨rest, rfl⟩ | ht)
  · exact ⟨before, rest, by rw [hv]; simp only [List.append_assoc]⟩
  · rw [hv]
    exact ht.trans (List.suffix_append _ _).isInfix

/-- Behind an occurrence that does not stand first, all is as it was. -/
theorem derails_iff (h : cutAt? (c :: mark) v = some (before, after)) (hb : before ≠ []) :
    Derails (c :: mark) v ↔ Derails (c :: mark) after := by
  refine Iff.trans (or_iff_right fun hp => ?_) (twice_iff hc h)
  obtain ⟨rest, h'⟩ := cutAt?_of_prefix hp
  cases h.symm.trans h'
  exact hb rfl

/-- **The search in a value without a meaning**: it ends at an occurrence that stands first, or
    right behind another one, and passes over all others. -/
theorem afterName?_inner (hq : 0x22 ∉ c :: mark) (hv : ∀ b ∈ v, isInner b = true) (rest : Bytes) :
    (Derails (c :: mark) v → ∃ u, (∀ b ∈ u, isInner b = true) ∧
      afterName? (c :: mark) (v ++ 0x22 :: rest) = some (u ++ 0x22 :: rest)) ∧
    (¬ Derails (c :: mark) v →
      afterName? (c :: mark) (v ++ 0x22 :: rest) = afterName? (c :: mark) (0x22 :: rest)) := by
  have hn : c :: mark ≠ [] := List.cons_ne_nil _ _
  -- by the length of the value: behind an occurrence that is passed over, what is left is shorter
  induction hlength : v.length using Nat.strongRecOn generalizing v with
  | ind n ih =>
    cases hcut : cutAt? (c :: mark) v with
    | none =>
      have hx := (cutAt?_eq_none_iff hn).1 hcut
      refine ⟨?_, fun _ => afterName?_append_cons hn hq hx rest⟩
      rintro (hp | ht)
      · exact absurd hp.isInfix hx
      · exact absurd ((List.prefix_append _ _).isInfix.trans ht) hx
    | some r =>
      obtain ⟨before, after⟩ := r
      have hfound := afterName?_of_some hn (cutAt?_append_of_some hn hcut (0x22 :: rest))
      have he := cutAt?_eq_some hcut
      obtain ⟨hbefore, hafter⟩ := forall_mem_of_cutAt? hcut hv
      -- nothing stands before the first occurrence at the start, or right behind another one
      by_cases hb : before = []
      · subst hb
        refine ⟨fun _ => ⟨after, hafter, hfound⟩, fun hno => absurd (.inl ⟨after, ?_⟩) hno⟩
        rw [he, List.nil_append]
      · rw [mayBegin_inner hbefore hb, if_neg Bool.false_ne_true] at hfound
        rw [derails_iff hc hcut hb, hfound]
        refine ih after.length ?_ hafter rfl
        rw [← hlength, he]
        simp only [List.length_append, List.length_cons]
        omega

/-- The search in a value between quotation marks, of which two occurrences in a row are the end. -/
theorem afterName?_quoted (hq : 0x22 ∉ c :: mark) (hv : ∀ b ∈ v, isInner b = true) (rest : Bytes) :
    ((c :: mark) ++ (c :: mark) <:+: v → ∃ u, (∀ b ∈ u, isInner b = true) ∧
      afterName? (c :: mark) (0x22 :: (v ++ 0x22 :: rest)) = some (u ++ 0x22 :: rest)) ∧
    (¬ (c :: mark) ++ (c :: mark) <:+: v →
      afterName? (c :: mark) (0x22 :: (v ++ 0x22 :: rest)) =
        afterName? (c :: mark) (0x22 :: rest)) := by
  have hn : c :: mark ≠ [] := List.cons_ne_nil _ _
  cases hcut : cutAt? (c :: mark) v with
  | none =>
    have hx := (cutAt?_eq_none_iff hn).1 hcut
    have hx' : ¬ c :: mark <:+: 0x22 :: v := by
      rw [List.infix_cons_iff, List.cons_prefix_cons]
      rintro (⟨rfl, -⟩ | h)
      · exact hq List.mem_cons_self
      · exact hx h
    exact ⟨fun ht => absurd ((List.prefix_append _ _).isInfix.trans ht) hx,
      fun _ => afterName?_append_cons hn hq hx' rest⟩
  | some r =>
    obtain ⟨before, after⟩ := r
    obtain ⟨hbefore, hafter⟩ := forall_mem_of_cutAt? hcut hv
    have hbegin : mayBegin (0x22 :: before) = false := by
      cases before with
      | nil => rfl
      | cons b before =>
        rw [← mayBegin_inner hbefore (List.cons_ne_nil _ _), mayBegin, mayBegin,
          List.getLast?_cons_cons]
    have hcut' := cutAt?_append_cons hq (fun h => hn (List.infix_nil.1 h)) (v ++ 0x22 :: rest)
    rw [cutAt?_append_of_some hn hcut] at hcut'
    have hfound := afterName?_of_some hn hcut'
    simp only [List.nil_append, hbegin, if_neg Bool.false_ne_true] at hfound
    rw [twice_iff hc hcut, hfound]
    exact afterName?_inner hc hq hafter rest

end

/-! ## Dispositions -/

/-- A text between quotation marks. -/
def inQuotes (t : Text) : Text := '\x22' :: (t ++ ['\x22'])

/-- What stands before the name of a field. -/
def nameMark : Text := "form-data; name=".toList

/-- What stands before the name of a file. -/
def fileMark : Text := "; filename=".toList

/-- The disposition of a form field. -/
def disposition (name : Text) (fileName : Option Text) : Text :=
  nameMark ++ inQuotes name ++ (fileName.map fun f => fileMark ++ inQuotes f).getD []

/-- A disposition is printable. -/
theorem printable_disposition {name : Text} (hname : ∀ c ∈ name, isPlain c = true)
    {fileName : Option Text} (hfile : ∀ f, fileName = some f → ∀ c ∈ f, isPlain c = true) :
    ∀ c ∈ disposition name fileName, 0x20 ≤ c.toNat ∧ c.toNat ≤ 0x7E := by
  have hquotes : ∀ t : Text, (∀ c ∈ t, isPlain c = true) →
      ∀ c ∈ inQuotes t, 0x20 ≤ c.toNat ∧ c.toNat ≤ 0x7E := by
    intro t ht c hc
    simp only [inQuotes, List.mem_cons, List.mem_append, List.not_mem_nil, or_false] at hc
    rcases hc with rfl | hc | rfl
    · decide
    · exact printable_of_isPlain (ht c hc)
    · decide
  have hmark : ∀ c ∈ nameMark, 0x20 ≤ c.toNat ∧ c.toNat ≤ 0x7E := by decide
  have hmark' : ∀ c ∈ fileMark, 0x20 ≤ c.toNat ∧ c.toNat ≤ 0x7E := by decide
  rw [disposition, List.forall_mem_append, List.forall_mem_append]
  refine ⟨⟨hmark, hquotes name hname⟩, ?_⟩
  cases fileName with
  | none => exact nofun
  | some f => exact List.forall_mem_append.2 ⟨hmark', hquotes f (hfile f rfl)⟩

theorem head?_disposition (name : Text) (fileName : Option Text) :
    (disposition name fileName).head? = some 'f' := by
  have hmark : nameMark.head? = some 'f' := by decide
  rw [disposition, List.head?_append, List.head?_append, hmark, Option.some_or, Option.some_or]

theorem getLast?_disposition (name : Text) (fileName : Option Text) :
    (disposition name fileName).getLast? = some '\x22' := by
  have hquotes : ∀ t, (inQuotes t).getLast? = some '\x22' := by
    intro t
    rw [inQuotes, List.getLast?_cons, List.getLast?_append]
    rfl
  rw [disposition, List.getLast?_append, List.getLast?_append, hquotes]
  cases fileName with
  | none => rfl
  | some f =>
    rw [Option.map_some, Option.getD_some, List.getLast?_append, hquotes, Option.some_or,
      Option.some_or]

/-- The octets behind the name of a field. -/
def fileTail (fileName : Option Text) : Bytes :=
  (fileName.map fun f => ascii "; filename=" ++ 0x22 :: (Utf8.encode f ++ [0x22])).getD []

theorem encode_nameMark : Utf8.encode nameMark = ascii "form-data; name=" :=
  Utf8.encode_ascii (by decide)

theorem encode_fileMark : Utf8.encode fileMark = ascii "; filename=" :=
  Utf8.encode_ascii (by decide)

theorem encode_inQuotes (t : Text) :
    Utf8.encode (inQuotes t) = 0x22 :: (Utf8.encode t ++ [0x22]) := by
  rw [inQuotes, Utf8.encode, List.flatMap_cons, ← Utf8.encode, Utf8.encode_append]
  rfl

theorem encode_disposition (name : Text) (fileName : Option Text) :
    Utf8.encode (disposition name fileName) =
      ascii "form-data; name=" ++ 0x22 :: (Utf8.encode name ++ 0x22 :: fileTail fileName) := by
  have hfile : Utf8.encode ((fileName.map fun f => fileMark ++ inQuotes f).getD []) =
      fileTail fileName := by
    cases fileName with
    | none => rfl
    | some f =>
      rw [Option.map_some, Option.getD_some, Utf8.encode_append, encode_inQuotes, encode_fileMark,
        fileTail, Option.map_some, Option.getD_some]
  rw [disposition, Utf8.encode_append, Utf8.encode_append, encode_inQuotes, encode_nameMark, hfile]
  simp only [List.append_assoc, List.cons_append, List.nil_append]

/-- A value between quotation marks behind the name of an attribute is its value. -/
theorem attributeOctets?_of_quoted {name value v rest : Bytes}
    (h : afterName? name value = some (0x3D :: 0x22 :: (v ++ 0x22 :: rest)))
    (hv : ∀ b ∈ v, isInner b = true) : attributeOctets? name value = some v := by
  have hbehind : ∀ (b : UInt8) (bs : Bytes), Text.isAsciiBlank b = false →
      behind? b (b :: bs) = some bs := by
    intro b bs hb
    rw [behind?, List.dropWhile_cons, hb]
    exact if_pos rfl
  rw [attributeOctets?, h, Option.bind_some, hbehind _ _ rfl, Option.bind_some, hbehind _ _ rfl]
  exact quotedValue?_append hv rest

/-- The words `name` and `filename`, each with its first octet apart, which does not recur. -/
theorem ascii_name : ascii "name" = 110 :: ascii "ame" := by decide

theorem ascii_filename : ascii "filename" = 102 :: ascii "ilename" := by decide

/-- **The name of a field is read from its disposition.** -/
theorem attribute?_name {name : Text} (hname : ∀ c ∈ name, isPlain c = true)
    (fileName : Option Text) :
    attribute? "name" (Utf8.encode (disposition name fileName)) = some name := by
  have hbegin :
      ascii "form-data; name=" = ascii "form-data; " ++ (110 :: ascii "ame") ++ [0x3D] := by
    decide
  have hbefore : ¬ 110 :: ascii "ame" <:+: ascii "form-data; " :=
    (occursIn_eq_false_iff (List.cons_ne_nil _ _)).1 (by decide)
  have hcut : cutAt? (ascii "name") (Utf8.encode (disposition name fileName)) =
      some (ascii "form-data; ",
        0x3D :: 0x22 :: (Utf8.encode name ++ 0x22 :: fileTail fileName)) := by
    rw [encode_disposition, hbegin, List.append_assoc _ [0x3D], ascii_name]
    exact cutAt?_append_mark (by decide) hbefore _
  have hafter := afterName?_of_some (by decide) hcut
  rw [if_pos (by decide)] at hafter
  rw [attribute?, attributeOctets?_of_quoted hafter (isInner_of_mem_encode hname),
    Option.bind_some, Utf8.decode?_encode]

/-- Behind the name of a field, the name of a file is found. -/
theorem afterName?_fileTail (f : Text) :
    afterName? (ascii "filename") (0x22 :: fileTail (some f)) =
      some (0x3D :: 0x22 :: (Utf8.encode f ++ 0x22 :: [])) := by
  have hbegin : ascii "; filename=" = ascii "; " ++ (102 :: ascii "ilename") ++ [0x3D] := by
    decide
  have htail : 0x22 :: fileTail (some f) = 0x22 :: ascii "; " ++ (102 :: ascii "ilename") ++
      0x3D :: 0x22 :: (Utf8.encode f ++ 0x22 :: []) := by
    rw [fileTail, Option.map_some, Option.getD_some, hbegin]
    simp only [List.append_assoc, List.cons_append, List.nil_append]
  have hbefore : ¬ 102 :: ascii "ilename" <:+: 0x22 :: ascii "; " :=
    (occursIn_eq_false_iff (List.cons_ne_nil _ _)).1 (by decide)
  have hcut : cutAt? (ascii "filename") (0x22 :: fileTail (some f)) =
      some (0x22 :: ascii "; ", 0x3D :: 0x22 :: (Utf8.encode f ++ 0x22 :: [])) := by
    rw [ascii_filename, htail]
    exact cutAt?_append_mark (by decide) hbefore _
  rw [afterName?_of_some (by decide) hcut, if_pos (by decide)]

/-- What a name must not hold for its file name to be read. -/
def stumbling : Text := "filenamefilename".toList

theorem stumbling_infix_iff {name : Text} (hname : ∀ c ∈ name, isPlain c = true) :
    ascii "filename" ++ ascii "filename" <:+: Utf8.encode name ↔ stumbling <:+: name := by
  have hlow : ∀ c ∈ name, c.toNat < 128 := fun c hc => lt_of_isPlain (hname c hc)
  constructor
  · intro h
    have h' := h.map fun b => Char.ofNat b.toNat
    rwa [Utf8.map_ofNat_encode hlow] at h'
  · intro h
    rw [Utf8.encode_ascii hlow]
    exact h.map fun c => Utf8.octet c.toNat

/-- **The name of a file is read from the disposition**, unless two of the words for it stand in the
    name of the field. -/
theorem attribute?_fileName {name : Text} (hname : ∀ c ∈ name, isPlain c = true)
    {fileName : Option Text} (hfile : ∀ f, fileName = some f → ∀ c ∈ f, isPlain c = true) :
    attribute? "filename" (Utf8.encode (disposition name fileName)) =
      if occursIn stumbling name then none else fileName := by
  have hinner := isInner_of_mem_encode hname
  have hbegin : afterName? (ascii "filename") (Utf8.encode (disposition name fileName)) =
      afterName? (ascii "filename") (0x22 :: (Utf8.encode name ++ 0x22 :: fileTail fileName)) := by
    rw [encode_disposition]
    exact afterName?_append_cons (by decide) (by decide)
      ((occursIn_eq_false_iff (by decide)).1 (by decide)) _
  have hquoted := @afterName?_quoted 102 (ascii "ilename") (Utf8.encode name) (by decide)
    (by decide) hinner (fileTail fileName)
  rw [← ascii_filename] at hquoted
  -- the search passes through the name of the field before it comes to what is behind it
  rw [attribute?]
  split
  · next h =>
    have hstands := (stumbling_infix_iff hname).2 ((occursIn_eq_true_iff (by decide)).1 h)
    obtain ⟨u, hu, hfound⟩ := hquoted.1 hstands
    rw [attributeOctets?, hbegin, hfound, Option.bind_some, behind?_inner hu]
    rfl
  · next h =>
    have hpassed := hquoted.2 fun hstands =>
      h ((occursIn_eq_true_iff (by decide)).2 ((stumbling_infix_iff hname).1 hstands))
    have hsearch := hbegin.trans hpassed
    cases fileName with
    | none =>
      have hnone : afterName? (ascii "filename") (0x22 :: fileTail none) = none :=
        afterName?_of_none (by decide)
      rw [attributeOctets?, hsearch, hnone]
      rfl
    | some f =>
      rw [attributeOctets?_of_quoted (hsearch.trans (afterName?_fileTail f))
        (isInner_of_mem_encode (hfile f rfl)), Option.bind_some, Utf8.decode?_encode]

end SessionGateway.Multipart
