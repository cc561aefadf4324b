/-
# How log entries change spans

What each log entry can do to the spans of a shard and to the last block id given out, for all
entries, from what `TernFS.Shard.SpanEvents` says of each.  The entries that change spans leave
directories, edges and linked files alone.
-/
import TernFS.Shard.SpanEvents

namespace TernFS

open Lib

section

variable {cfg : ShardConfig} {cache : BlockServicesCache} {db db' : ShardDB} {time : ℕ}
  {resp : ShardResp} {body : ShardLogEntryBody}

lemma applyRemoveInode_spans {r : RemoveInodeReq} (h : applyRemoveInode db time r = .ok (db', resp)) :
    db'.spans = db.spans ∧ db'.nextBlockId = db.nextBlockId := by
  unfold applyRemoveInode at h
  split_ifs at h
  · have hside := (applyRemoveDirectoryInode_namesStep h).2
    exact ⟨congrArg (fun side => side.1.spans) hside, congrArg Prod.snd hside⟩
  · exact (applyRemoveFileInode_fileStep h).2.1

/-- Every entry that is applied changes spans in one of these ways. -/
theorem applyEntryBody_spanChange (h : applyEntryBody cfg cache db time body = .ok (db', resp)) :
    SpanChange cfg cache db time body db'.spans db'.nextBlockId := by
  cases body with
  | constructFile => exact .of_eq (applyConstructFile_fileStep h).2.1 (by simp)
  | linkFile => exact .of_fileStep (applyLinkFile_fileStep h).1 (.inl rfl) (by simp)
  | sameDirectoryRename | sameDirectoryRenameSnapshot | softUnlinkFile | createDirectoryInode
  | createLockedCurrentEdge | unlockCurrentEdge | lockCurrentEdge | removeDirectoryOwner
  | setDirectoryOwner | setDirectoryInfo | removeNonOwnedEdge | removeOwnedSnapshotFileEdge =>
    exact .of_fileSide (applyEntryBody_fileSide h trivial) (by simp)
  | removeInode => exact .of_eq (applyRemoveInode_spans h) (by simp)
  | sameShardHardFileUnlink =>
    exact .of_fileStep (applySameShardHardFileUnlink_fileStep h).1 (.inr rfl) (by simp)
  | removeSpanInitiate => exact (applyRemoveSpanInitiate_fileStep h).2.1
  | addInlineSpan => exact (applyAddInlineSpan_fileStep h).2.1 cache
  | addSpanAtLocationInitiate => exact (applyAddSpanInitiate_fileStep h).2.1
  | addSpanCertify => exact .of_eq (applyAddSpanCertify_fileStep h).2.1 (by simp)
  | makeFileTransient =>
    exact .of_fileStep (applyMakeFileTransient_fileStep h).1 (.inr rfl) (by simp)
  | scrapTransientFile => exact .of_fileSide (applyScrapTransientFile_fileSide h).1 (by simp)
  | removeSpanCertify => exact (applyRemoveSpanCertify_fileStep h).2.1
  | swapBlocks => exact (applySwapBlocks_fileStep h).2.1 cfg time
  | moveSpan => exact (applyMoveSpan_fileStep h).2.1 cache
  | setTime => exact .of_fileSide (applySetTime_fileSide h).1 (by simp)
  | removeZeroBlockServiceFiles =>
    exact .of_fileSide (applyRemoveZeroBlockServiceFiles_fileSide h).1 (by simp)
  | swapSpans => exact (applySwapSpans_fileStep h).2.1 cfg cache time
  | addSpanLocation => exact (applyAddSpanLocation_fileStep h).2.1 cache
  | heartbeat =>
    cases h
    exact .of_eq ⟨rfl, rfl⟩ (by simp)

/-- The entries that concern files and spans alone. -/
def ShardLogEntryBody.FilesOnly : ShardLogEntryBody → Prop
  | constructFile _ | scrapTransientFile _ | setTime _ | removeZeroBlockServiceFiles _
  | addInlineSpan _ | addSpanAtLocationInitiate _ | addSpanCertify _ | removeSpanInitiate _
  | removeSpanCertify _ | swapBlocks _ | swapSpans _ | moveSpan _ | addSpanLocation _ => True
  | _ => False

/-- These leave directories, edges and linked files alone. -/
lemma applyEntryBody_named (h : applyEntryBody cfg cache db time body = .ok (db', resp))
    (hbody : body.FilesOnly) : db'.named = db.named := by
  cases body with
  | constructFile => exact (applyConstructFile_fileStep h).2.2
  | scrapTransientFile => exact (applyScrapTransientFile_fileSide h).2
  | setTime => exact (applySetTime_fileSide h).2
  | removeZeroBlockServiceFiles => exact (applyRemoveZeroBlockServiceFiles_fileSide h).2
  | addInlineSpan => exact (applyAddInlineSpan_fileStep h).2.2
  | addSpanAtLocationInitiate => exact (applyAddSpanInitiate_fileStep h).2.2
  | addSpanCertify => exact (applyAddSpanCertify_fileStep h).2.2
  | removeSpanInitiate => exact (applyRemoveSpanInitiate_fileStep h).2.2
  | removeSpanCertify => exact (applyRemoveSpanCertify_fileStep h).2.2
  | swapBlocks => exact (applySwapBlocks_fileStep h).2.2
  | swapSpans => exact (applySwapSpans_fileStep h).2.2
  | moveSpan => exact (applyMoveSpan_fileStep h).2.2
  | addSpanLocation => exact (applyAddSpanLocation_fileStep h).2.2
  | _ => exact hbody.elim

end

end TernFS
