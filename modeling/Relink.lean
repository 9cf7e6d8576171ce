import Relink.Main
import Relink.Proofs.Isolation
import Relink.Proofs.Placement
import Relink.Proofs.Scan.Ending.Statement
import Relink.Proofs.Splitting
import Relink.Store
import Relink.Proofs.Coverage
import Relink.Proofs.Scan.Semicolon
import Relink.Proofs.Scan.Join
import Relink.Proofs.Scan.Ending.Statements
import Relink.Proofs.Concatenation
import Relink.Proofs.Scan.Spelling
import Relink.Proofs.Scan.Spread
import Relink.Proofs.Recognition
import Relink.Proofs.Scan.Repeat
import Relink.Proofs.Scan.Repeat.Statements
import Relink.Proofs.Shifting
import Relink.Proofs.Bracketing
import Relink.Proofs.Rebuilding
import Relink.Proofs.Overwriting
import Relink.Proofs.Fixing
import Relink.Proofs.Soundness
import Relink.Proofs.Severing
import Relink.Proofs.Scan.Followed
import Relink.Proofs.Unterminated
import Relink.Proofs.Scan.Markup
import Relink.Proofs.Elements
import Relink.Proofs.Scan.Marks
import Relink.Proofs.Scan.Unclosed
import Relink.Proofs.Scan.Reached
import Relink.Proofs.Balance
import Relink.Proofs.Opacity
import Relink.Proofs.Path.Following
import Relink.Proofs.Naming
import Relink.Proofs.Probing
import Relink.Proofs.Unfinished
import Relink.Proofs.Accessing
import Relink.Proofs.Accounting
import Relink.Proofs.Narrating
import Relink.Proofs.Build.Sparing
import Relink.Proofs.Discovering
import Relink.Proofs.Progressing
import Relink.Proofs.Substituting
