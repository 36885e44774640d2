import JitSupport.CodeMemory
import JitSupport.System.PageRights
import JitSupport.Table.Edit
import JitSupport.Table.Raw
import JitSupport.Table.Space
import JitSupport.Proofs.CodeMemory.Contents
import JitSupport.Proofs.CodeMemory.Protection
import JitSupport.Proofs.CodeMemory.Failure
import JitSupport.Proofs.CodeMemory.Visibility
import JitSupport.Proofs.CodeMemory.Edits
import JitSupport.Proofs.CodeMemory.Recovery
import JitSupport.Proofs.CodeMemory.Lifetime
import JitSupport.Proofs.CodeMemory.Answers
import JitSupport.Proofs.CodeMemory.Log
import JitSupport.Proofs.Boundaries
import JitSupport.Proofs.Cache.Lines
import JitSupport.Proofs.Cache.Order
import JitSupport.Proofs.Cache.Request
import JitSupport.Proofs.Cache.TouchedPages
import JitSupport.Proofs.Mapping.Changes
import JitSupport.Proofs.Table.History
import JitSupport.Proofs.Table.Equality
import JitSupport.Proofs.Table.Undo
import JitSupport.Proofs.Table.Sharing
import JitSupport.Proofs.Table.Clients
import JitSupport.Proofs.Table.Foreign
