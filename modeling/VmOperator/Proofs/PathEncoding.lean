import VmOperator.Proofs.Bytes.Wire
import VmOperator.Proofs.Store.Yields

/-! Paths survive their way to the appliance and back. A path is read from its wire form again, so no two paths have one;
and the wire form of valid text is written again just as it was read (`encodePath_of_decodePath`). Hence a download goes to
the directory that the appliance reported, in the bytes that it reported it with (`download_goes_to`). -/

namespace VmOperator.Appliance

variable {path dir : String}

theorem decodePath_encodePath (path : String) : decodePath (.string (encodePath path)) = .ok path :=
  decodePath_encode_iff.2 rfl

theorem encodePath_of_decodePath {bytes : List UInt8} (read : decodePath (.string (Base64.encode bytes)) = .ok path) :
    encodePath path = Base64.encode bytes := by
  rw [encodePath, ← decodePath_encode_iff.1 read]

theorem exists_decodePath_iff (bytes : List UInt8) :
    (∃ path, decodePath (.string (Base64.encode bytes)) = .ok path) ↔ bytes.toByteArray.IsValidUTF8 := by
  simp only [Utf8.isValidUTF8_iff, Utf8.decode_eq_ok_iff, decodePath_encode_iff]

section Directory

variable {s : Settings} {urls : List String} {name : Value}

def Reply.Names (reply : Reply) (encoded : String) : Prop :=
  ∃ fs, resultOf reply = some (.object fs) ∧ Fields.get? fs "download_dir" = some (.string encoded)

def directoryRequest : Request := ⟨.get, "/downloads/config/", .none⟩

def downloadRequest (urls : List String) (encoded : String) (name : Value) : Request :=
  ⟨.post, "/downloads/add", .form [("download_url_list", .string ("\n".intercalate urls)),
    ("download_dir", .string encoded), ("filename", name)]⟩

theorem directoryQuery_read {reply : Reply} (names : reply.Names (encodePath dir)) (set : dir ≠ "") :
    (directoryQuery s).read reply = .ok dir := by
  obtain ⟨fs, result, given⟩ := names
  refine (query_read s).2 ⟨.object fs, result, ?_⟩
  rw [directoryIn, Value.orElse_object, Value.get_object, given, ok_bind]
  dsimp only [Option.getD_some]
  rw [decodePath_encodePath]
  dsimp only
  rw [if_neg (by simpa using set)]
  rfl

theorem downloadQuery_request (urls : List String) (dir : String) (name : Value) :
    (downloadQuery s (urls.map Value.string) (.string dir) name).request = .ok (downloadRequest urls (encodePath dir) name) := by
  have texts : (urls.map Value.string).mapM Value.toText = .ok urls := by
    induction urls with
    | nil => rfl
    | cons url urls ih => rw [List.map_cons, List.mapM_cons, ih]; rfl
  rw [downloadQuery, query, texts]
  rfl

/-- where the appliance names this directory, a download is asked for in the same bytes -/
theorem download_goes_to {W : World} (set : dir ≠ "")
    (names : ∀ h e reply, W h e → e.said = .sent directoryRequest reply → reply.Names (encodePath dir)) (h : Held) :
    W.Ensures h (do addDownload s (urls.map Value.string) (.string (← downloadDirectory s)) name).run fun es _ _ =>
      ∃ told given, es.map (·.said) =
        [.sent directoryRequest told, .sent (downloadRequest urls (encodePath dir) name) given] := by
  refine World.Yields.ensures (World.Yields.bind ?_)
  have asked : (directoryQuery s).request = .ok directoryRequest := rfl
  have read {h e reply} (happens : W h e) (said : e.said = .sent directoryRequest reply) :
      (directoryQuery s).read reply = .ok dir := directoryQuery_read (names h e reply happens said) set
  rw [downloadDirectory_eq]
  refine .ask (fun f failed => ?_) (fun e r told d written said happens found => ?_)
    (fun e r told f written said happens failed => ?_)
  · rw [asked] at failed
    cases failed
  · rw [asked] at written
    cases written
    rw [read happens said] at found
    cases found
    have written := downloadQuery_request (s := s) urls dir name
    rw [addDownload_eq]
    refine .ask (fun f failed => ?_) (fun e' r given id asked said' _ _ => ?_) (fun e' r given f asked said' _ _ => ?_)
    · rw [written] at failed
      cases failed
    all_goals
      rw [written] at asked
      cases asked
      exact ⟨told, given, by rw [List.singleton_append, List.map_cons, List.map_singleton, said, said']⟩
  · rw [asked] at written
    cases written
    rw [read happens said] at failed
    cases failed

end Directory

/-- A path is read from its wire form again, so different paths are sent differently. Base64 of bytes is read as a path
exactly if the bytes are valid UTF-8, and that path is written as it was read. So where the appliance names a directory for
downloads in base64 of valid bytes, a download is asked for with the very same text; an empty name is refused as none. -/
theorem paths_survive_wire :
    (∀ path, decodePath (.string (encodePath path)) = .ok path) ∧
      Function.Injective encodePath ∧
      (∀ bytes, (∃ path, decodePath (.string (Base64.encode bytes)) = .ok path) ↔ bytes.toByteArray.IsValidUTF8) ∧
      (∀ bytes path, decodePath (.string (Base64.encode bytes)) = .ok path → encodePath path = Base64.encode bytes) ∧
      ∀ (s : Settings) (urls : List String) (name : Value) (bytes : List UInt8) (W : World) (h : Held),
        bytes.toByteArray.IsValidUTF8 → bytes ≠ [] →
        (∀ h e reply, W h e → e.said = .sent directoryRequest reply → reply.Names (Base64.encode bytes)) →
        W.Ensures h (do addDownload s (urls.map Value.string) (.string (← downloadDirectory s)) name).run fun es _ _ =>
          ∃ told given, es.map (·.said) =
            [.sent directoryRequest told, .sent (downloadRequest urls (Base64.encode bytes) name) given] := by
  refine ⟨decodePath_encodePath, fun _ _ => encodePath_inj, exists_decodePath_iff, fun _ _ => encodePath_of_decodePath, ?_⟩
  intro s urls name bytes W h valid nonempty names
  obtain ⟨dir, read⟩ := (exists_decodePath_iff bytes).2 valid
  have written := encodePath_of_decodePath read
  have set : dir ≠ "" := by
    rintro rfl
    exact nonempty (decodePath_encode_iff.1 read)
  rw [← written] at names ⊢
  exact download_goes_to set names h

section Sample

/-- a directory beyond ASCII, whose wire form is padded -/
def sampleDirectory : String := "/Disque/Télé"

def sampleWire : String := "L0Rpc3F1ZS9Uw6lsw6k="

def sampleReply (result : Value) : Reply := .answer (.int 200) (some (.object [("success", .bool true), ("result", result)]))

/-- the appliance names the directory and takes a download as its seventh task, and nothing else happens -/
def sampleWorld : World := fun _ e => e.said ∈
  [.sent directoryRequest (sampleReply (.object [("download_dir", .string sampleWire)])),
    .sent (downloadRequest ["http://images/disk.raw"] sampleWire (.string "disk.raw"))
      (sampleReply (.object [("id", .int 7)]))]

def sampleDownload : Action Int := do
  addDownload {} (["http://images/disk.raw"].map Value.string) (.string (← downloadDirectory {})) (.string "disk.raw")

theorem sampleWorld_names (h : Held) (e : Event) (reply : Reply) (happens : sampleWorld h e)
    (said : e.said = .sent directoryRequest reply) : reply.Names sampleWire := by
  rw [sampleWorld, said, List.mem_cons, List.mem_singleton] at happens
  rcases happens with told | told <;> cases told
  exact ⟨_, rfl, rfl⟩

theorem sampleDownload_plays : ∃ es, sampleWorld.Plays ⟨none, []⟩ sampleDownload.run es (.ok 7) ⟨none, []⟩ :=
  ⟨_, .send (e := ⟨_, ⟨none, []⟩, ⟨none, []⟩⟩) rfl (.head _)
    (.send (e := ⟨_, ⟨none, []⟩, ⟨none, []⟩⟩) rfl (.tail _ (.head _)) (.done _ _))⟩

/-- the directory is read, and a download asked for with the text that named it -/
theorem paths_survive_wire_accented :
    decodePath (.string sampleWire) = .ok sampleDirectory ∧
      (∃ es, sampleWorld.Plays ⟨none, []⟩ sampleDownload.run es (.ok 7) ⟨none, []⟩) ∧
      sampleWorld.Ensures ⟨none, []⟩ sampleDownload.run fun es _ _ => ∃ told given, es.map (·.said) =
        [.sent directoryRequest told, .sent (downloadRequest ["http://images/disk.raw"] sampleWire (.string "disk.raw")) given] := by
  have wire : Base64.encode (Utf8.encode sampleDirectory) = sampleWire := by decide
  have read : decodePath (.string sampleWire) = .ok sampleDirectory := wire ▸ paths_survive_wire.1 sampleDirectory
  have valid := (paths_survive_wire.2.2.1 (Utf8.encode sampleDirectory)).1 ⟨sampleDirectory, wire ▸ read⟩
  have goes := paths_survive_wire.2.2.2.2 {} ["http://images/disk.raw"] (.string "disk.raw") (Utf8.encode sampleDirectory)
    sampleWorld ⟨none, []⟩ valid (by decide)
  rw [wire] at goes
  exact ⟨read, sampleDownload_plays, goes sampleWorld_names⟩

end Sample

end VmOperator.Appliance
