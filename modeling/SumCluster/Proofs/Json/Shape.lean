import SumCluster.Json.Shape
import SumCluster.Proofs.Json.RoundTrip

/-!
Everything that the program stores or reports is read back from its JSON text. The text of a form is
the form again, in either layout, so it remains to read each form: a field is found by its name,
because no two fields of a record share theirs, and an outcome's status is none of the other fields.
-/

namespace SumCluster.Json

open Wire

variable {α β γ δ : Type} {name name2 name3 : String} {v : Value} {n : Nat}
  {fields : List (String × Value)}

/-- Reading the members of a list one by one. -/
theorem mapM_map_eq_some {f : β → Option γ} {g : α → β} {h : α → γ} {xs : List α}
    (hxs : ∀ x ∈ xs, f (g x) = some (h x)) : (xs.map g).mapM f = some (xs.map h) := by
  induction xs with
  | nil => rfl
  | cons x xs ih =>
    obtain ⟨hx, hxs⟩ := List.forall_mem_cons.mp hxs
    simp [List.mapM_cons, hx, ih hxs]

/-! ### Integers -/

@[simp]
theorem Value.int?_ofInt (i : Int) : (ofInt i).int? = some i := by
  by_cases hi : i < 0
  · have habs : i.natAbs ≠ 0 := by omega
    simp only [ofInt, hi, decide_true, int?, if_neg habs, Option.some.injEq]
    omega
  · simp only [ofInt, hi, decide_false, int?, Option.some.injEq]
    omega

namespace Shape

theorem intIn?_ofInt {lo hi i : Int} (hlo : lo ≤ i) (hhi : i ≤ hi) :
    intIn? lo hi (.ofInt i) = some i := by
  simp [intIn?, hlo, hhi]

@[simp]
theorem int32_read_write (v : Int32) : int32.read? (int32.write v) = some v := by
  have hlo := v.le_toInt
  have hhi := v.toInt_lt
  have hread : intIn? (-2147483648) 2147483647 (.ofInt v.toInt) = some v.toInt :=
    intIn?_ofInt (by omega) (by omega)
  simp only [int32, hread, Option.map_some, Int32.ofInt_toInt]

theorem word_read_write (hn : n < Word.limit64) : word.read? (word.write n) = some n := by
  simp only [Word.limit64] at hn
  have hread : intIn? 0 18446744073709551615 (.ofInt n) = some (n : Int) :=
    intIn?_ofInt (by omega) (by omega)
  simp only [word, hread, Option.map_some, Int.toNat_natCast]

/-- Only machine words are read. -/
theorem word_lt (h : word.read? v = some n) : n < Word.limit64 := by
  obtain ⟨i, hi, rfl⟩ := Option.map_eq_some_iff.mp h
  obtain ⟨-, hfits⟩ := Option.filter_eq_some_iff.mp hi
  have := of_decide_eq_true hfits
  simp only [Word.limit64]
  omega

@[simp]
theorem text_read_write (s : String) : text.read? (text.write s) = some s := by
  simp [text, Value.ofString, Value.text?]

@[simp]
theorem int32s_read_write (vs : List Int32) : int32s.read? (int32s.write vs) = some vs := by
  change (vs.map int32.write).mapM int32.read? = some vs
  simpa using mapM_map_eq_some (h := id) fun v _ => int32_read_write v

end Shape

/-! ### Records -/

/-- Fields as the members of an object. -/
def membersOf (fields : List (String × Value)) : List (Literal × Value) :=
  fields.map fun (name, v) => (some name.toList, v)

theorem ofFields_eq (fields : List (String × Value)) :
    Value.ofFields fields = .object (membersOf fields) := rfl

/-- If no two fields share a name, a name picks one field. -/
theorem filter_name (hnames : (fields.map (·.1)).Nodup) (hmem : (name, v) ∈ fields) :
    fields.filter (fun f => f.1 = name) = [(name, v)] := by
  induction fields with
  | nil => cases hmem
  | cons f fs ih =>
    obtain ⟨hfirst, hrest⟩ := List.nodup_cons.mp hnames
    have hne : ∀ g ∈ fs, g.1 ≠ f.1 := fun g hg heq =>
      hfirst (List.mem_map.mpr ⟨g, hg, heq⟩)
    obtain rfl | hmem := List.mem_cons.mp hmem
    · simpa [List.filter_eq_nil_iff] using fun a b hab => hne (a, b) hab
    · rw [List.filter_cons_of_neg (by simpa using (hne _ hmem).symm), ih hrest hmem]

theorem member?_of_mem (hnames : (fields.map (·.1)).Nodup) (hmem : (name, v) ∈ fields) :
    member? name (membersOf fields) = some v := by
  simp [member?, membersOf, List.filter_map, Function.comp_def, String.toList_inj,
    filter_name hnames hmem]

/-- Leaving out a name that no field has changes nothing. -/
theorem filter_ne_name (hnew : name ∉ fields.map (·.1)) :
    (membersOf fields).filter (fun m => m.1 ≠ some name.toList) = membersOf fields := by
  rw [List.filter_eq_self]
  intro m hm
  obtain ⟨f, hf, rfl⟩ := List.mem_map.mp hm
  have hne : f.1 ≠ name := fun heq => hnew (List.mem_map.mpr ⟨f, hf, heq⟩)
  simpa only [ne_eq, Option.some.injEq, String.toList_inj, decide_eq_true_eq] using hne

/-- The fields of a record are found in order. -/
theorem fields?_ofFields (hnames : (fields.map (·.1)).Nodup) :
    fields? (fields.map (·.1)) (.ofFields fields) = some (fields.map (·.2)) := by
  have hall : (membersOf fields).all (·.1.isSome) = true := by simp [membersOf]
  simp only [ofFields_eq, fields?, hall, if_true]
  exact mapM_map_eq_some fun f hf => member?_of_mem hnames hf

namespace Shape

theorem record1_read_write {a : Shape α} {make : α → β} {get : β → α} {x : β}
    (ha : a.read? (a.write (get x)) = some (get x)) (hx : make (get x) = x) :
    (record1 name a make get).read? ((record1 name a make get).write x) = some x := by
  have hfields : fields? [name] (.ofFields [(name, a.write (get x))]) = some [a.write (get x)] :=
    fields?_ofFields (by simp)
  simp [record1, hfields, ha, hx]

theorem record2_read_write {a : Shape α} {b : Shape β} {make : α → β → γ} {get : γ → α × β} {x : γ}
    (hnames : [name, name2].Nodup) (ha : a.read? (a.write (get x).1) = some (get x).1)
    (hb : b.read? (b.write (get x).2) = some (get x).2) (hx : make (get x).1 (get x).2 = x) :
    (record2 name name2 a b make get).read? ((record2 name name2 a b make get).write x) =
      some x := by
  have hfields : fields? [name, name2]
      (.ofFields [(name, a.write (get x).1), (name2, b.write (get x).2)]) =
      some [a.write (get x).1, b.write (get x).2] :=
    fields?_ofFields hnames
  simp [record2, hfields, ha, hb, hx]

theorem record3_read_write {a : Shape α} {b : Shape β} {c : Shape γ} {make : α → β → γ → δ}
    {get : δ → α × β × γ} {x : δ} (hnames : [name, name2, name3].Nodup)
    (ha : a.read? (a.write (get x).1) = some (get x).1)
    (hb : b.read? (b.write (get x).2.1) = some (get x).2.1)
    (hc : c.read? (c.write (get x).2.2) = some (get x).2.2)
    (hx : make (get x).1 (get x).2.1 (get x).2.2 = x) :
    (record3 name name2 name3 a b c make get).read?
      ((record3 name name2 name3 a b c make get).write x) = some x := by
  have hfields : fields? [name, name2, name3]
      (.ofFields [(name, a.write (get x).1), (name2, b.write (get x).2.1),
        (name3, c.write (get x).2.2)]) =
      some [a.write (get x).1, b.write (get x).2.1, c.write (get x).2.2] :=
    fields?_ofFields hnames
  simp [record3, hfields, ha, hb, hc, hx]

@[simp]
theorem handshake_read_write (h : Handshake) : handshake.read? (handshake.write h) = some h :=
  record1_read_write (text_read_write _) rfl

@[simp]
theorem taskRequest_read_write (t : TaskRequest) :
    taskRequest.read? (taskRequest.write t) = some t :=
  record2_read_write (by decide) (int32s_read_write _) (int32_read_write _) rfl

@[simp]
theorem subtaskRequest_read_write (s : SubtaskRequest) :
    subtaskRequest.read? (subtaskRequest.write s) = some s :=
  record2_read_write (by decide) (int32s_read_write _) (int32_read_write _) rfl

@[simp]
theorem subtaskResult_read_write (r : SubtaskResult) :
    subtaskResult.read? (subtaskResult.write r) = some r :=
  record2_read_write (by decide) (int32_read_write _) (text_read_write _) rfl

@[simp]
theorem clientResponse_read_write (r : ClientResponse) :
    clientResponse.read? (clientResponse.write r) = some r :=
  record3_read_write (by decide) (int32_read_write _) (int32_read_write _) (int32_read_write _) rfl

@[simp]
theorem errorResponse_read_write (e : ErrorResponse) :
    errorResponse.read? (errorResponse.write e) = some e :=
  record2_read_write (by decide) (int32_read_write _) (text_read_write _) rfl

theorem partialResult_read_write {p : PartialResult} (hp : p.index < Word.limit64) :
    partialResult.read? (partialResult.write p) = some p :=
  record3_read_write (by decide) (word_read_write hp) (text_read_write _) (int32_read_write _) rfl

/-- Only numbers that are machine words are read as the index of a partial result. -/
theorem index_lt_of_read {p : PartialResult} (h : partialResult.read? v = some p) :
    p.index < Word.limit64 := by
  simp only [partialResult, record3] at h
  split at h
  · simp only [Option.bind_eq_bind, Option.bind_eq_some_iff, Option.pure_def] at h
    obtain ⟨index, hindex, workerId, -, value, -, hp⟩ := h
    cases hp
    exact word_lt hindex
  · cases h

/-! ### Tagged forms -/

theorem find?_name (k : Kind) : (Kind.all.find? fun l => l.name.toList = k.name.toList) = some k := by
  cases k <;> rfl

@[simp]
theorem message_read_write (m : Message) : message.read? (message.write m) = some m := by
  change (Kind.all.find? fun l => l.name.toList = m.kind.name.toList).bind
    (readContent? (writeContent m)) = some m
  rw [find?_name, Option.bind_some]
  cases m <;> simp [Message.kind, readContent?, writeContent]

@[simp]
theorem computeMode_read_write (m : ComputeMode) :
    computeMode.read? (computeMode.write m) = some m := by
  cases m <;> rfl

end Shape

/-! ### Outcomes -/

/-- A double has room for every number of at most 53 binary digits. -/
theorem roundBinary_of_lt (hn : n < 2 ^ 53) : roundBinary n = n := by
  have hdigits : n.log2 + 1 - 53 = 0 := by
    obtain rfl | hne := Nat.eq_zero_or_pos n
    · rfl
    · have := (Nat.log2_lt (by omega)).mpr hn
      omega
  simp [roundBinary, hdigits, Nat.mod_one]

/-- Such a number needs no scaling, so nothing is rounded and it is far from the end of the range. -/
theorem isFinite_int (negative : Bool) (hn : n < 2 ^ 53) :
    (Number.int negative n).isFinite = true := by
  have hword : leadingWord n 0 = (n, 0) := by
    rw [leadingWord, if_pos (by simp only [Word.limit64]; omega)]
  have hlimit : ∀ k, 53 ≤ k → n < 1 <<< k := by
    intro k hk
    rw [Nat.one_shiftLeft]
    exact hn.trans_le (Nat.pow_le_pow_right (by decide) hk)
  have hone : roundBinary (Nat.pow 10 (0 : Int).toNat) = 1 := roundBinary_of_lt (by decide)
  have hrange : roundBinary (roundBinary n * roundBinary (Nat.pow 10 (0 : Int).toNat)) <
      1 <<< 1024 := by
    rw [hone, Nat.mul_one, roundBinary_of_lt hn, roundBinary_of_lt hn]
    exact hlimit 1024 (by decide)
  simp only [Number.isFinite, hword, decide_eq_true hrange]
  simp

namespace Shape

/-- Every 32-bit integer is a number in range. -/
@[simp]
theorem isPlain_int32 (v : Int32) : isPlain (int32.write v) = true := by
  have hlo := v.le_toInt
  have hhi := v.toInt_lt
  exact isFinite_int (v.toInt < 0) (by omega)

@[simp]
theorem isPlain_text (s : String) : isPlain (text.write s) = true := rfl

@[simp]
theorem depth_int32 (v : Int32) : depth (int32.write v) = 0 := rfl

@[simp]
theorem depth_text (s : String) : depth (text.write s) = 0 := rfl

/-- The status is read with the record it stands before, and is none of the record's fields. -/
theorem read_withStatus (status : String) (hnames : ("status" :: fields.map (·.1)).Nodup)
    (hplain : isPlain (.ofFields fields) = true) (hdepth : depth (.ofFields fields) ≤ maxDepth) :
    taskOutcome.read? (withStatus status (.ofFields fields)) =
      readOutcome? (.ofFields fields) status := by
  have hwhole : withStatus status (.ofFields fields) =
      .object (membersOf (("status", .ofString status) :: fields)) := rfl
  have hread : isPlain (withStatus status (.ofFields fields)) = true ∧
      depth (withStatus status (.ofFields fields)) ≤ maxDepth := by
    constructor
    · simpa [withStatus, ofFields_eq, Value.ofString, isPlain, membersPlain] using hplain
    · simpa [withStatus, ofFields_eq, Value.ofString, depth, depthMembers] using hdepth
  have hstatus : member? "status" (membersOf (("status", .ofString status) :: fields)) =
      some (.ofString status) := by
    have hnodup : ((("status", Value.ofString status) :: fields).map (·.1)).Nodup := hnames
    exact member?_of_mem hnodup List.mem_cons_self
  have hothers : (membersOf (("status", .ofString status) :: fields)).filter
      (fun m => m.1 ≠ some "status".toList) = membersOf fields := by
    rw [membersOf, List.map_cons, List.filter_cons_of_neg (by simp)]
    exact filter_ne_name (List.nodup_cons.mp hnames).1
  have htext : (Value.ofString status).text? = some status := text_read_write status
  simp only [taskOutcome, hread, decide_true, Bool.and_self, if_true]
  simp only [hwhole, hstatus, hothers, Option.bind_eq_bind, Option.bind_some, htext]
  rfl

@[simp]
theorem taskOutcome_read_write (o : TaskOutcome) :
    taskOutcome.read? (taskOutcome.write o) = some o := by
  cases o with
  | completed r =>
    refine (read_withStatus "completed" (by simp) ?_ ?_).trans ?_
    · simp [Value.ofFields, isPlain, membersPlain]
    · simp [Value.ofFields, depth, depthMembers, maxDepth]
    · exact congrArg (Option.map TaskOutcome.completed) (clientResponse_read_write r)
  | rejected e =>
    refine (read_withStatus "rejected" (by simp) ?_ ?_).trans ?_
    · simp [Value.ofFields, isPlain, membersPlain]
    · simp [Value.ofFields, depth, depthMembers, maxDepth]
    · exact congrArg (Option.map TaskOutcome.rejected) (errorResponse_read_write e)

-- The status stands among the fields of the record, and not around it.
example : print .compact (taskOutcome.write (.rejected ⟨1, "Not enough nodes"⟩)) =
    "\x7b\"status\":\"rejected\",\"code\":1,\"message\":\"Not enough nodes\"\x7d" := by
  cbv

/-! ### Texts -/

/-- What a text is read as. -/
def ofText? (s : Shape α) (text : String) : Option α := (parse? text).bind s.read?

/-- A text of a form. -/
def toText (s : Shape α) (layout : Layout) (x : α) : String := print layout (s.write x)

/-- A type survives being written. Its valid values are read back from their texts, whatever was read
from any text is read back once it is written again, and both texts of a value say the same. -/
structure RoundTrips (s : Shape α) (valid : α → Prop) : Prop where
  ofText?_toText (x : α) (hx : valid x) (layout : Layout) : s.ofText? (s.toText layout x) = some x
  rewritten {text : String} {x : α} (h : s.ofText? text = some x) (layout : Layout) :
    s.ofText? (s.toText layout x) = some x
  layouts_agree (x : α) : s.ofText? (s.toText .compact x) = s.ofText? (s.toText .indented x)

/-- A text is as good as the form it is the text of. -/
theorem ofText?_toText (s : Shape α) (layout : Layout) (x : α) :
    s.ofText? (s.toText layout x) = s.read? (s.write x) := by
  rw [ofText?, toText, parse?_print, Option.bind_some]

theorem RoundTrips.of_read_write {s : Shape α} {valid : α → Prop}
    (hvalid : ∀ v x, s.read? v = some x → valid x)
    (hread : ∀ x, valid x → s.read? (s.write x) = some x) : RoundTrips s valid where
  ofText?_toText x hx layout := (Shape.ofText?_toText s layout x).trans (hread x hx)
  rewritten h layout := by
    obtain ⟨v, -, hv⟩ := Option.bind_eq_some_iff.mp h
    exact (Shape.ofText?_toText s layout _).trans (hread _ (hvalid v _ hv))
  layouts_agree x := by
    rw [Shape.ofText?_toText, Shape.ofText?_toText]

theorem RoundTrips.of_total {s : Shape α} (hread : ∀ x, s.read? (s.write x) = some x) :
    RoundTrips s fun _ => True :=
  .of_read_write (fun _ _ _ => trivial) fun x _ => hread x

/-- Everything that the program stores or reports survives being written, in either layout: every
message and every record that one carries, every outcome and mode, and every partial result whose
index is a machine word. -/
theorem forms_round_trip :
    RoundTrips message (fun _ => True) ∧ RoundTrips handshake (fun _ => True) ∧
      RoundTrips taskRequest (fun _ => True) ∧ RoundTrips subtaskRequest (fun _ => True) ∧
      RoundTrips subtaskResult (fun _ => True) ∧ RoundTrips clientResponse (fun _ => True) ∧
      RoundTrips errorResponse (fun _ => True) ∧ RoundTrips taskOutcome (fun _ => True) ∧
      RoundTrips computeMode (fun _ => True) ∧
      RoundTrips partialResult (fun p => p.index < Word.limit64) := by
  refine ⟨.of_total message_read_write, .of_total handshake_read_write,
    .of_total taskRequest_read_write, .of_total subtaskRequest_read_write,
    .of_total subtaskResult_read_write, .of_total clientResponse_read_write,
    .of_total errorResponse_read_write, .of_total taskOutcome_read_write,
    .of_total computeMode_read_write, ?_⟩
  exact .of_read_write (fun _ _ h => index_lt_of_read h) fun _ hp => partialResult_read_write hp

/-- The last machine word, the least integer and a name that has to be escaped are read back, and so
is a message whose text has escapes that nobody needs. -/
theorem forms_round_trip_escaped :
    partialResult.ofText? (partialResult.toText .indented
        ⟨18446744073709551615, "\"\\\x00\n\x7f", -2147483648⟩) =
      some ⟨18446744073709551615, "\"\\\x00\n\x7f", -2147483648⟩ ∧
    message.ofText? "\x7b \"Handshake\": [\"\\u0041\\/\\ud83d\\ude00\"] \x7d" =
      some (.handshake ⟨"A/😀"⟩) ∧
    message.ofText? (message.toText .compact (.handshake ⟨"A/😀"⟩)) =
      some (.handshake ⟨"A/😀"⟩) := by
  have hread : message.ofText? "\x7b \"Handshake\": [\"\\u0041\\/\\ud83d\\ude00\"] \x7d" =
      some (.handshake ⟨"A/😀"⟩) := by decide +kernel
  obtain ⟨hmessage, -, -, -, -, -, -, -, -, hpartial⟩ := forms_round_trip
  have hword : 18446744073709551615 < Word.limit64 := by decide
  exact ⟨hpartial.ofText?_toText _ hword .indented, hread, hmessage.rewritten hread .compact⟩

end Shape

end SumCluster.Json
