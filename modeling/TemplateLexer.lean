import TemplateLexer.Cursor.Session
import TemplateLexer.Lexer.Session
import TemplateLexer.Options.Json
import TemplateLexer.Proofs.ChunkerSession
import TemplateLexer.Proofs.Classification
import TemplateLexer.Proofs.Coverage
import TemplateLexer.Proofs.CursorSession
import TemplateLexer.Proofs.Fragments
import TemplateLexer.Proofs.LexerSession
import TemplateLexer.Proofs.LogComparison
import TemplateLexer.Proofs.NormalForm
import TemplateLexer.Proofs.Respelling
import TemplateLexer.Proofs.StrictError
import TemplateLexer.Proofs.Text.ByteSearch
import TemplateLexer.Proofs.Text.Trimming
import TemplateLexer.Proofs.TrimMode
import TemplateLexer.Token.Json
import TemplateLexer.Proofs.ChunkCount
import TemplateLexer.Proofs.CursorSearch
import TemplateLexer.Proofs.Json.Literal
import TemplateLexer.Proofs.Token.Json
import TemplateLexer.Proofs.LexError
import TemplateLexer.Proofs.Text.RunEnds
import TemplateLexer.Proofs.Token.Display
import TemplateLexer.Proofs.Json.Grammar
import TemplateLexer.Proofs.Json.Skip
import TemplateLexer.Proofs.Json.Spelling
import TemplateLexer.Proofs.Options.Json
