import JobConsole.Proofs.Json.Typed
import JobConsole.Proofs.Time.Timestamp
import JobConsole.Wire.Event

/-! # Events read back

An event is read back from the text it is written to, whatever its strings hold. The payload stands
between the other members of one flat object; it is found by its tag, because no member of a payload
is called like a member of the event around it.
-/

namespace JobConsole

open Json (Reads Fills)

/-! ## What payloads are made of -/

theorem Timestamp.reads_toJson {t : Timestamp} (h : t.IsRegular) :
    Reads Timestamp.reader t.toJson t :=
  Json.reads_parsed (ofText?_toText h)

theorem LogEntry.reads_toJson {e : LogEntry} (h : e.timestamp.IsRegular) :
    Reads LogEntry.reader e.toJson e :=
  Json.reads_record
    (.cons rfl rfl ((Json.reads_name e.stream.ofName?_name).map _) <|
      .cons rfl rfl ((Json.reads_string e.message).map _) <|
      .cons rfl rfl ((Timestamp.reads_toJson h).map _) (.nil _))
    rfl

theorem Artifact.reads_toJson {a : Artifact} (h : a.size < 2 ^ 64) :
    Reads Artifact.reader a.toJson a :=
  Json.reads_record
    (.cons rfl rfl ((Json.reads_string a.id).map _) <|
      .cons rfl rfl ((Json.reads_string a.name).map _) <|
      .cons rfl rfl ((Json.reads_name a.kind.ofName?_name).map _) <|
      .cons rfl rfl ((Json.reads_unsigned (Nat.le_refl 64) h).map _) <|
      .cons rfl rfl ((Json.reads_string a.url).map _) (.nil _))
    rfl

namespace Payload

/-- Numbers have the widths that they are read with, and a detail is a value as documents hold them,
with room for the object around it. -/
def Fits : Payload → Prop
  | started pid => ∀ n ∈ pid, n < 2 ^ 32
  | log entry => entry.timestamp.IsRegular
  | finished _ exitCode _ _ => ∀ n ∈ exitCode, -2 ^ 31 ≤ n ∧ n < 2 ^ 31
  | artifactReady artifacts => ∀ a ∈ artifacts, a.size < 2 ^ 64
  | stage _ detail =>
    ∀ v ∈ detail, v ≠ .null ∧ v.isExact = true ∧ v.isArranged = true ∧ v.depth < Json.maxDepth
  | fileAccepted _ size _ => size < 2 ^ 64
  | queued .. | error .. => True

variable {p : Payload}

theorem fills_members (h : p.Fits) :
    ∃ d, Fills (Draft.fields p.kind) .empty p.members d ∧ Draft.finish p.kind d = some p := by
  cases p with
  | queued label command =>
    have hcommand : Reads (Json.list Json.string) (.texts command) command :=
      Json.reads_list fun s _ => Json.reads_string s
    exact ⟨_, .cons rfl rfl ((Json.reads_string label).map _) <|
      .cons rfl rfl (hcommand.map _) (.nil _), rfl⟩
  | started pid =>
    have hpid : Reads (Json.optional (Json.unsigned 32)) (.orNull .nat pid) pid :=
      Json.reads_orNull (fun n hn => Json.reads_unsigned (by decide) (h n hn))
        fun _ _ hn => by cases hn
    exact ⟨_, .cons rfl rfl (hpid.map _) (.nil _), rfl⟩
  | log entry =>
    exact ⟨_, .cons rfl rfl ((LogEntry.reads_toJson h).map _) (.nil _), rfl⟩
  | error message =>
    exact ⟨_, .cons rfl rfl ((Json.reads_string message).map _) (.nil _), rfl⟩
  | finished status exitCode signal failure =>
    have hcode : Reads (Json.optional (Json.signed 32)) (.orNull .int exitCode) exitCode :=
      Json.reads_orNull (fun n hn => Json.reads_signed (by decide) (h n hn))
        fun _ _ hn => by cases hn
    exact ⟨_, .cons rfl rfl ((Json.reads_name status.ofName?_name).map _) <|
      .cons rfl rfl (hcode.map _) <| .cons rfl rfl ((Json.reads_orNull_text signal).map _) <|
      .cons rfl rfl ((Json.reads_orNull_text failure).map _) (.nil _), rfl⟩
  | artifactReady artifacts =>
    have hartifacts : Reads (Json.list Artifact.reader) (.array (artifacts.map Artifact.toJson))
        artifacts := Json.reads_list fun a ha => Artifact.reads_toJson (h a ha)
    exact ⟨_, .cons rfl rfl (hartifacts.map _) (.nil _), rfl⟩
  | stage name detail =>
    have hdetail : Reads (Json.optional Json.json) (detail.getD .null) detail := by
      cases detail with
      | none => exact fun _ _ => rfl
      | some v =>
        obtain ⟨hv, hexact, harranged, -⟩ := h v rfl
        exact Json.reads_optional (Json.reads_json hexact harranged) hv
    exact ⟨_, .cons rfl rfl ((Json.reads_string name).map _) <|
      .cons rfl rfl (hdetail.map _) (.nil _), rfl⟩
  | fileAccepted fileName size path =>
    exact ⟨_, .cons rfl rfl ((Json.reads_string fileName).map _) <|
      .cons rfl rfl ((Json.reads_unsigned (Nat.le_refl 64) h).map _) <|
      .cons rfl rfl ((Json.reads_orNull_text path).map _) (.nil _), rfl⟩

theorem exact_members (h : p.Fits) : Json.haveExact p.members = true := by
  have htext (o : Option String) : Json.isExact (.orNull .text o) = true :=
    Json.isExact_orNull fun _ _ => rfl
  cases p with
  | queued label command =>
    have hcommand : Json.areExact (command.map Json.text) = true := Json.areExact_map fun _ _ => rfl
    simp only [members, Json.texts, Json.haveExact, Json.isExact, hcommand, Bool.and_self]
  | started pid =>
    have hpid : Json.isExact (.orNull .nat pid) = true :=
      Json.isExact_orNull fun n hn => Json.isExact_nat (Nat.lt_trans (h n hn) (by decide))
    simp only [members, Json.haveExact, hpid, Bool.and_self]
  | log entry => rfl
  | error message => rfl
  | finished status exitCode signal failure =>
    have hcode : Json.isExact (.orNull .int exitCode) = true :=
      Json.isExact_orNull fun n hn => by
        have hn := h n hn
        exact Json.isExact_int (by omega)
    simp only [members, Json.haveExact, Json.isExact, hcode, htext, Bool.and_self]
  | artifactReady artifacts =>
    have hartifacts : Json.areExact (artifacts.map Artifact.toJson) = true :=
      Json.areExact_map fun a ha => by
        simp only [Artifact.toJson, Json.isExact, Json.haveExact, Json.isExact_nat (h a ha),
          Bool.and_self]
    simp only [members, Json.haveExact, Json.isExact, hartifacts, Bool.and_self]
  | stage name detail =>
    have hdetail : Json.isExact (detail.getD .null) = true := by
      cases detail with
      | none => rfl
      | some v => exact (h v rfl).2.1
    simp only [members, Json.haveExact, Json.isExact, hdetail, Bool.and_self]
  | fileAccepted fileName size path =>
    simp only [members, Json.haveExact, Json.isExact, Json.isExact_nat h, htext, Bool.and_self]

theorem membersDepth_lt (h : p.Fits) : Json.membersDepth p.members < Json.maxDepth := by
  have hmax : 3 < Json.maxDepth := by decide
  have htext := Json.depth_orNull_eq_zero (g := Json.text) fun _ => rfl
  cases p with
  | queued label command =>
    have hcommand : Json.itemsDepth (command.map Json.text) ≤ 0 :=
      Json.itemsDepth_map_le fun _ _ => Nat.le_refl 0
    simp only [members, Json.texts, Json.membersDepth, Json.depth]
    omega
  | started pid =>
    have hpid := Json.depth_orNull_eq_zero (g := Json.nat) (fun _ => rfl) pid
    simp only [members, Json.membersDepth, hpid]
    omega
  | log entry => exact (by decide : 1 < Json.maxDepth)
  | error message => exact (by decide : 0 < Json.maxDepth)
  | finished status exitCode signal failure =>
    have hcode := Json.depth_orNull_eq_zero (g := Json.int) (fun _ => rfl) exitCode
    simp only [members, Json.membersDepth, Json.depth, hcode, htext]
    omega
  | artifactReady artifacts =>
    have hartifacts : Json.itemsDepth (artifacts.map Artifact.toJson) ≤ 1 :=
      Json.itemsDepth_map_le fun _ _ => Nat.le_refl 1
    simp only [members, Json.membersDepth, Json.depth]
    omega
  | stage name detail =>
    have hdetail : Json.depth (detail.getD .null) < Json.maxDepth := by
      cases detail with
      | none => exact (by decide : 0 < Json.maxDepth)
      | some v => exact (h v rfl).2.2.2
    simp only [members, Json.membersDepth, Json.depth]
    omega
  | fileAccepted fileName size path =>
    simp only [members, Json.membersDepth, Json.nat, Json.depth, htext]
    omega

theorem members_names (p : Payload) :
    ∀ e ∈ p.members, e.1 ≠ "jobId" ∧ e.1 ≠ "timestamp" ∧ e.1 ≠ "type" := by
  cases p <;> simp [members]

theorem fromEntries_nodesOf (h : p.Fits) :
    fromEntries kindOfTag? (Json.nodesOf (("type", .text p.kind.tag) :: p.members)) = .ok p := by
  obtain ⟨d, hfills, hfinish⟩ := fills_members h
  have hnames : ∀ e ∈ Json.nodesOf p.members, e.1 ≠ "type" := by
    intro e he
    obtain ⟨e', he', rfl⟩ := List.mem_map.mp he
    exact (members_names p e' he').2.2
  have htag : (Json.nodesOf (("type", .text p.kind.tag) :: p.members)).filter (·.1 = "type") =
      [("type", .text (some p.kind.tag))] := by
    rw [Json.nodesOf, List.map_cons, List.filter_cons_of_pos rfl]
    exact congrArg _ (List.filter_eq_nil_iff.mpr fun e he => by simp [hnames e he])
  have hrest : (Json.nodesOf (("type", .text p.kind.tag) :: p.members)).filter (·.1 ≠ "type") =
      Json.nodesOf p.members := by
    rw [Json.nodesOf, List.map_cons, List.filter_cons_of_neg (by simp)]
    exact List.filter_eq_self.mpr fun e he => decide_eq_true (hnames e he)
  have hkind : kindOfTag? (.text (some p.kind.tag)) = some p.kind := EventKind.ofTag?_tag p.kind
  rw [fromEntries, htag, hrest]
  simp only [hkind]
  exact Json.fromOthers_of_fills hfills (Nat.le_of_lt (membersDepth_lt h)) hfinish

end Payload

namespace Event

/-- The timestamp is printed with four digits for the year, and the payload fits. -/
structure Fits (e : Event) : Prop where
  timestamp : e.timestamp.IsRegular
  payload : e.payload.Fits

variable {e : Event}

theorem toJson_eq (e : Event) : e.toJson =
    .object ([("jobId", .text e.jobId), ("timestamp", e.timestamp.toJson)] ++
      (("type", .text e.payload.kind.tag) :: e.payload.members)) := rfl

theorem isExact_toJson (h : e.Fits) : e.toJson.isExact = true := Payload.exact_members h.payload

theorem depth_toJson_le (h : e.Fits) : e.toJson.depth ≤ Json.maxDepth := by
  have hmembers := Payload.membersDepth_lt h.payload
  simp only [toJson_eq, Json.depth, Json.membersDepth_append, Json.membersDepth, Timestamp.toJson]
  omega

theorem reads_toJson (h : e.Fits) : Reads Event.reader e.toJson e := by
  rw [toJson_eq]
  refine Json.reads_flattened
    (.cons rfl rfl ((Json.reads_string e.jobId).map _) <|
      .cons rfl rfl ((Timestamp.reads_toJson h.timestamp).map _) (.nil _))
    ?_ (Payload.exact_members h.payload) (Payload.fromEntries_nodesOf h.payload) rfl
  intro m hm
  rcases List.mem_cons.mp hm with rfl | hm
  · rfl
  · obtain ⟨hid, htime, -⟩ := Payload.members_names e.payload m hm
    simp [Json.field, hid.symm, htime.symm]

theorem member?_arranged_type (e : Event) :
    e.toJson.arranged.member? "type" = some (.text e.name) := by
  have hnames : ∀ m ∈ Json.arrangedMembers e.payload.members, m.1 ≠ "type" := by
    intro m hm
    obtain ⟨m', hm', rfl⟩ := List.mem_map.mp (Json.arrangedMembers_eq_map _ ▸ hm)
    exact (Payload.members_names e.payload m' hm').2.2
  have htype (d : Dict Json) : (d.insert "type" (.text e.payload.kind.tag)).get? "type" =
      some (.text e.name) := by
    rw [Dict.get?_insert, if_pos rfl, EventKind.tag_eq_name]
    rfl
  exact (Dict.get?_foldl_insert_of_notMem hnames _).trans (htype _)

/-- An event is read back from its text, and the text names it. -/
theorem round_trip (h : e.Fits) :
    Json.decode Event.reader e.toJson.render = .ok e ∧
      (Json.decode Json.json e.toJson.render).map (·.member? "type") = .ok (some (.text e.name)) := by
  have hexact := isExact_toJson h
  have hdepth := depth_toJson_le h
  refine ⟨Json.decode_of_reads (reads_toJson h) hexact hdepth, ?_⟩
  rw [Json.decode_render hexact hdepth, Except.map, member?_arranged_type]

/-- A stage called by a quote, a line feed and a control character, with lists inside its detail. -/
theorem round_trip_of_stage :
    let detail : Json := .object [("a", .array [.null, .array [.nat 18446744073709551615]]),
      ("b\\", .object [("", .int (-9223372036854775808)), ("ü", .text "\x00")])]
    let e : Event := ⟨"j\t1", ⟨Date.epoch, 23, 59, 59, 999999999⟩, .stage "\"\n\x1f" (some detail)⟩
    e.Fits ∧ Json.decode Event.reader e.toJson.render = .ok e ∧
      (Json.decode Json.json e.toJson.render).map (·.member? "type") =
        .ok (some (.text e.name)) := by
  intro detail e
  have hdetail : detail.isExact = true ∧ detail.isArranged = true ∧ detail.depth < Json.maxDepth := by
    decide +kernel
  have hpayload : e.payload.Fits := by
    intro v hv
    obtain rfl := Option.some.inj hv
    exact ⟨by simp only [detail, ne_eq, reduceCtorEq, not_false_eq_true], hdetail⟩
  have hfits : e.Fits := ⟨⟨by decide, by decide, by decide, by decide, by decide⟩, hpayload⟩
  exact ⟨hfits, round_trip hfits⟩

end Event

end JobConsole
