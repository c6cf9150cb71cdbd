import OntologyGuard.Proofs.Data.Rebuilding
import OntologyGuard.Proofs.Json.Fields
import OntologyGuard.Proofs.Timestamp
import OntologyGuard.Storage.Metadata

namespace OntologyGuard

namespace Metadata

def manifestJson (manifest : SortedMap String) : Json :=
  .record (manifest.entries.map fun entry ↦ (entry.1, .text entry.2))

def manifest? (json : Json) : Option (SortedMap String) := do
  let members ← json.asMembers?
  return .ofList (← members.mapM fun member ↦ member.2.asText?.map (member.1, ·))

def fields (m : Metadata) : List (String × Json) :=
  [("version", .text m.version), ("path", .option .text m.path), ("hash", .option .text m.hash),
    ("manifest", .option manifestJson m.manifest), ("timestamp", .text m.timestamp.text),
    ("comment", .option .text m.comment)]

theorem spelled_manifestJson (manifest : SortedMap String) : Json.Spelled (manifestJson manifest) := by
  refine Json.spelled_record fun member hmember ↦ ?_
  obtain ⟨entry, -, rfl⟩ := List.mem_map.1 hmember
  exact Json.spelled_text entry.2

theorem spelled_toJson (m : Metadata) : Json.Spelled m.toJson := by
  have htext := Json.spelled_option Json.spelled_text
  refine Json.spelled_record fun member hmember ↦ ?_
  simp only [List.mem_cons, List.not_mem_nil, or_false] at hmember
  rcases hmember with rfl | rfl | rfl | rfl | rfl | rfl
  · exact Json.spelled_text m.version
  · exact htext m.path
  · exact htext m.hash
  · exact Json.spelled_option spelled_manifestJson m.manifest
  · exact Json.spelled_text m.timestamp.text
  · exact htext m.comment

theorem manifest?_manifestJson (manifest : SortedMap String) :
    manifest? (manifestJson manifest) = some manifest := by
  have hentries : (manifest.entries.map fun entry ↦ (entry.1, Json.text entry.2)).mapM
      (fun member ↦ member.2.asText?.map (member.1, ·)) = some manifest.entries := by
    refine Json.mapM_map (fun entry ↦ ?_) manifest.entries
    rfl
  simp [manifest?, manifestJson, Json.asMembers?_record, hentries, SortedMap.ofList_entries]

/-- All but the timestamp comes back in any case. -/
theorem ofJson?_toJson (m : Metadata) :
    ofJson? m.toJson = (Timestamp.parse? m.timestamp.text).map fun time ↦ { m with timestamp := time } := by
  have hfields : Json.Fields.ofJson? ["version", "path", "hash", "manifest", "timestamp", "comment"]
      m.toJson = some ⟨false, m.fields⟩ :=
    Json.Fields.ofJson?_record (.refl _) (by decide)
  have hversion : Json.Fields.get? ⟨false, m.fields⟩ "version" = some (.text m.version) := rfl
  have hpath : Json.Fields.get? ⟨false, m.fields⟩ "path" = some (.option .text m.path) := rfl
  have hhash : Json.Fields.get? ⟨false, m.fields⟩ "hash" = some (.option .text m.hash) := rfl
  have hfiles : Json.Fields.get? ⟨false, m.fields⟩ "manifest" =
      some (.option manifestJson m.manifest) := rfl
  have htime : Json.Fields.get? ⟨false, m.fields⟩ "timestamp" = some (.text m.timestamp.text) := rfl
  have hcomment : Json.Fields.get? ⟨false, m.fields⟩ "comment" = some (.option .text m.comment) := rfl
  have htext (s : String) : (Json.text s).asText? = some s := rfl
  have hoptional (x : Option String) : (Json.option .text x).asOption? Json.asText? = some x :=
    Json.asOption?_option .text htext (fun _ heq ↦ by cases heq) x
  have hmanifest : (Json.option manifestJson m.manifest).asOption? manifest? = some m.manifest :=
    Json.asOption?_option manifestJson manifest?_manifestJson (fun _ heq ↦ by cases heq) m.manifest
  rw [ofJson?, hfields]
  simp only [Option.bind_eq_bind, Option.bind_some, Json.Fields.required?_of_get? hversion,
    Json.Fields.required?_of_get? htime, Json.Fields.nullable?_of_get? hpath,
    Json.Fields.nullable?_of_get? hhash, Json.Fields.nullable?_of_get? hfiles,
    Json.Fields.nullable?_of_get? hcomment, htext, hoptional]
  refine (congrArg (Option.bind · _) hmanifest).trans ?_
  cases Timestamp.parse? m.timestamp.text <;> rfl

theorem parseBytes?_compact (m : Metadata) : (Json.parseBytes? (Text.utf8 m.toJson.compact)).bind ofJson? =
    (Timestamp.parse? m.timestamp.text).map fun time ↦ { m with timestamp := time } := by
  rw [Json.parseBytes?_utf8, Json.parse?_compact m.spelled_toJson, Option.bind_some, ofJson?_toJson]

end Metadata

end OntologyGuard
